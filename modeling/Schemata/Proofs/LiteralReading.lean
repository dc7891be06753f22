import Schemata.Proofs.Numerals
import Schemata.Proofs.QuotedText
import Schemata.Proofs.Reading
/-!
Literals that are read back.

A literal of the generated code stands for a datum: null, a boolean, an exact number, a text, or an
array or an object of such data. The reader of data is a reader of the generated language, written
without looking at how literals are written: words, numerals, quoted strings, arrays, and objects
whose names are identifiers or quoted strings. Main statement (`Value.literal_reads_back`): what is read
from the literal of a value is the datum of that value, and nothing of the literal is left over; a value
has a literal unless an integer in it has more than `Decimal.digitLimit` digits.

Floating-point numbers are left out, and so are names with a line break at their end that count as
identifiers: their line break is no part of the name to a reader.
-/

namespace Schemata

/-- What a literal of the generated code stands for. Objects keep the order of their entries. -/
inductive Datum where
  | null
  | bool (b : Bool)
  | number (q : ℚ)
  | text (s : String)
  | array (items : List Datum)
  | object (entries : List (String × Datum))

/-! ## Data of values -/

namespace Value

mutual
/-- The datum of a value. Sequences of both kinds are arrays, and numbers of all kinds are exact. -/
def datum? : Value → Option Datum
  | null => some .null
  | bool b => some (.bool b)
  | int n => some (.number n)
  | float _ => none
  | decimal d => d.rational?.map .number
  | str s => some (.text s)
  | bytes _ => none
  | list items => (data? items).map .array
  | tuple items => (data? items).map .array
  | map entries => (entryData? entries).map .object
def data? : List Value → Option (List Datum)
  | [] => some []
  | item :: rest => do
    let datum ← datum? item
    let data ← data? rest
    return datum :: data
/-- The names and the data of the entries of a map. -/
def entryData? : List (Value × Value) → Option (List (String × Datum))
  | [] => some []
  | (key, value) :: rest => do
    let name ← key.text?
    let datum ← datum? value
    let data ← entryData? rest
    return (name, datum) :: data
end

/-- A name that is written as it is and ends in a line break. -/
def endsLine (name : String) : Bool := Text.isIdentifier name && name.toList.getLast? == some '\n'

mutual
/-- Values that are built from null, booleans, integers, finite decimals and strings by sequences and
by maps. Keys are strings, and none of them is an identifier with a line break at its end. -/
def isReadable : Value → Bool
  | null => true
  | bool _ => true
  | int _ => true
  | float _ => false
  | decimal d => d.isFinite
  | str _ => true
  | bytes _ => false
  | list items => areReadable items
  | tuple items => areReadable items
  | map entries => haveReadable entries
def areReadable : List Value → Bool
  | [] => true
  | item :: rest => item.isReadable && areReadable rest
/-- Whether all entries of a map have such keys and values. -/
def haveReadable : List (Value × Value) → Bool
  | [] => true
  | (key, value) :: rest =>
    key.text?.any (fun name => !endsLine name) && value.isReadable && haveReadable rest
end

end Value

/-! ## Reading data -/

namespace Datum

open Reader (skip isSpace)
open Text (word startsIdentifier continuesIdentifier)

def ofWord? (w : String) : Option Datum :=
  if w = "null" then some .null
  else if w = "true" then some (.bool true)
  else if w = "false" then some (.bool false)
  else none

/-- A quoted string behind its opening quote. -/
def readString (cs : List Char) : Option (String × List Char) := (Reader.string cs).toOption

/-- A number. No name and no digit may follow it at once. -/
def readNumber (cs : List Char) : Option (Datum × List Char) :=
  match Numeral.scan cs with
  | some (n, rest) =>
    if rest.head?.any continuesIdentifier then none else some (.number n.rational, rest)
  | none => none

/-- A datum that holds no other data. -/
def readScalar (cs : List Char) : Option (Datum × List Char) :=
  match cs with
  | [] => none
  | '"' :: rest => (readString rest).map fun r => (.text r.1, r.2)
  | c :: rest =>
    if startsIdentifier c then
      (ofWord? (word (c :: rest))).map fun d => (d, (c :: rest).dropWhile continuesIdentifier)
    else readNumber (c :: rest)

/-- The name of a property: a quoted string, or an identifier. -/
def readName (cs : List Char) : Option (String × List Char) :=
  match cs with
  | [] => none
  | '"' :: rest => readString rest
  | c :: rest =>
    if startsIdentifier c then some (word (c :: rest), (c :: rest).dropWhile continuesIdentifier)
    else none

mutual
/-- The datum at the front of a text. Every call takes a character, so that the length of the text is
enough `fuel`. -/
def read : Nat → List Char → Option (Datum × List Char)
  | 0, _ => none
  | fuel + 1, cs =>
    match cs with
    | '[' :: rest =>
      match skip rest with
      | ']' :: rest => some (.array [], rest)
      | rest => (readItems fuel rest).map fun r => (.array r.1, r.2)
    | '\x7b' :: rest =>
      match skip rest with
      | '\x7d' :: rest => some (.object [], rest)
      | rest => (readEntries fuel rest).map fun r => (.object r.1, r.2)
    | cs => readScalar cs
/-- The items of an array from the first one up to the closing bracket. -/
def readItems : Nat → List Char → Option (List Datum × List Char)
  | 0, _ => none
  | fuel + 1, cs =>
    match read fuel cs with
    | none => none
    | some (datum, rest) =>
      match skip rest with
      | ']' :: rest => some ([datum], rest)
      | ',' :: rest => (readItems fuel (skip rest)).map fun r => (datum :: r.1, r.2)
      | _ => none
/-- The entries of an object from the first name up to the closing brace. -/
def readEntries : Nat → List Char → Option (List (String × Datum) × List Char)
  | 0, _ => none
  | fuel + 1, cs =>
    match readName cs with
    | none => none
    | some (name, rest) =>
      match skip rest with
      | ':' :: rest =>
        match read fuel (skip rest) with
        | none => none
        | some (datum, rest) =>
          match skip rest with
          | '\x7d' :: rest => some ([(name, datum)], rest)
          | ',' :: rest => (readEntries fuel (skip rest)).map fun r => ((name, datum) :: r.1, r.2)
          | _ => none
      | _ => none
end

/-- The datum that a whole text is the literal of. -/
def ofText? (text : String) : Option Datum :=
  match read text.toList.length text.toList with
  | some (datum, []) => some datum
  | _ => none

/-! ## Words, numbers and strings -/

theorem word_ends {front rest : List Char} (hfront : ∀ c ∈ front, continuesIdentifier c = true)
    (hrest : Numeral.Ends rest) :
    word (front ++ rest) = String.ofList front ∧
      (front ++ rest).dropWhile continuesIdentifier = rest := by
  have hstop : rest.takeWhile continuesIdentifier = [] ∧ rest.dropWhile continuesIdentifier = rest := by
    cases rest with
    | nil => exact ⟨rfl, rfl⟩
    | cons c tail => simp [(hrest c tail rfl).1]
  simp only [word, List.takeWhile_append_of_pos hfront, List.dropWhile_append_of_pos hfront, hstop,
    List.append_nil, and_self]

theorem readScalar_word {w : String} {d : Datum} {rest : List Char}
    (hw : Text.isIdentifier w = true) (hall : w.toList.all continuesIdentifier = true)
    (hd : ofWord? w = some d) (hrest : Numeral.Ends rest) :
    readScalar (w.toList ++ rest) = some (d, rest) := by
  obtain ⟨c, tail, hname, hc, -⟩ := Text.isIdentifier_starts hw
  have hread := word_ends (List.all_eq_true.1 hall) hrest
  rw [hname, List.cons_append] at hread ⊢
  unfold readScalar
  split
  · rename_i heq
    cases heq
  · rename_i heq
    rw [(List.cons.inj heq).1] at hc
    exact absurd hc (by decide)
  · rename_i heq
    cases heq
    rw [if_pos hc, hread.1, hread.2, ← hname, String.ofList_toList, hd]
    rfl

/-- Names do not start with a digit. -/
theorem startsIdentifier_of_isDigit {c : Char} (h : c.isDigit = true) : startsIdentifier c = false := by
  have hdigits := Numeral.forall_digits (p := fun c => !startsIdentifier c) (by decide) h
  simpa using hdigits

theorem readScalar_number {n : Numeral} (h : n.WellFormed) {rest : List Char}
    (hrest : Numeral.Ends rest) :
    readScalar (n.chars ++ rest) = some (.number n.rational, rest) := by
  have hscan := Numeral.scan_chars h hrest
  have hnext : rest.head?.any continuesIdentifier = false := by
    cases rest with
    | nil => rfl
    | cons c tail => exact (hrest c tail rfl).1
  obtain ⟨c, tail, hchars, hc⟩ := h.head rest
  have hstart : c ≠ '"' ∧ startsIdentifier c = false := by
    rcases hc with rfl | hc
    · decide
    · exact ⟨by rintro rfl; exact absurd hc (by decide), startsIdentifier_of_isDigit hc⟩
  rw [hchars] at hscan ⊢
  unfold readScalar
  split
  · rename_i heq
    cases heq
  · rename_i heq
    exact absurd (List.cons.inj heq).1 hstart.1
  · rename_i heq
    cases heq
    rw [if_neg (by simp [hstart.2]), readNumber, hscan]
    simp [hnext]

theorem readString_quoted (s : String) (rest : List Char) :
    readString (Text.escapePoints (Text.points s) ++ '"' :: rest) = some (s, rest) := by
  rw [readString, Reader.string_escape]
  rfl

theorem quoted_toList (s : String) (rest : List Char) :
    (Text.quoted s).toList ++ rest = '"' :: (Text.escapePoints (Text.points s) ++ '"' :: rest) := by
  simp [Text.quoted, Text.quotedPoints]

theorem readScalar_quoted (s : String) (rest : List Char) :
    readScalar ((Text.quoted s).toList ++ rest) = some (.text s, rest) := by
  rw [quoted_toList]
  show (readString (Text.escapePoints (Text.points s) ++ '"' :: rest)).map _ = _
  rw [readString_quoted]
  rfl

/-! ## Names -/

/-- An identifier without a line break at its end has nothing but the characters of identifiers. -/
theorem continues_of_not_endsLine {name : String} (h : Text.isIdentifier name = true)
    (hline : Value.endsLine name = false) : ∀ c ∈ name.toList, continuesIdentifier c = true := by
  obtain ⟨front, hfront, rfl | rfl⟩ := Text.isIdentifier_cases h
  · rwa [String.toList_ofList]
  · simp [Value.endsLine, h] at hline

/-- A word that begins as identifiers do is read as a name. -/
theorem readName_word {w : String} {c : Char} {tail : List Char} (hchars : w.toList = c :: tail)
    (hc : startsIdentifier c = true) (hall : ∀ c ∈ w.toList, continuesIdentifier c = true)
    {rest : List Char} (hrest : Numeral.Ends rest) :
    readName (w.toList ++ rest) = some (w, rest) := by
  have hread := word_ends hall hrest
  rw [hchars, List.cons_append] at hread ⊢
  unfold readName
  split
  · rename_i heq
    cases heq
  · rename_i heq
    rw [(List.cons.inj heq).1] at hc
    exact absurd hc (by decide)
  · rename_i heq
    cases heq
    rw [if_pos hc, hread.1, hread.2, ← hchars, String.ofList_toList]

/-- The name of a property is read back as it is. -/
theorem readName_propertyName {name : String} (hline : Value.endsLine name = false)
    {rest : List Char} (hrest : Numeral.Ends rest) :
    readName ((Text.propertyName name).toList ++ rest) = some (name, rest) := by
  rw [Text.propertyName_eq]
  split
  · rename_i hname
    obtain ⟨c, tail, hchars, hc, -⟩ := Text.isIdentifier_starts hname
    exact readName_word hchars hc (continues_of_not_endsLine hname hline) hrest
  · rw [quoted_toList]
    exact readString_quoted name rest

/-! ## First characters -/

/-- A text starts with a character that is no space and no closing bracket. -/
def StartsPlain (text : String) : Prop :=
  ∃ c tail, text.toList = c :: tail ∧ isSpace c = false ∧ c ≠ ']' ∧ c ≠ '\x7d'

theorem StartsPlain.length {text : String} (h : StartsPlain text) : 0 < text.toList.length := by
  obtain ⟨c, tail, htext, -⟩ := h
  rw [htext]
  exact Nat.succ_pos _

theorem StartsPlain.append {text : String} (h : StartsPlain text) (next : String) :
    StartsPlain (text ++ next) := by
  obtain ⟨c, tail, htext, hc⟩ := h
  exact ⟨c, tail ++ next.toList, by rw [String.toList_append, htext]; rfl, hc⟩

theorem StartsPlain.skip {text : String} (h : StartsPlain text) (rest : List Char) :
    Reader.skip (text.toList ++ rest) = text.toList ++ rest := by
  obtain ⟨c, tail, htext, hc, -⟩ := h
  rw [htext, List.cons_append, Reader.skip, List.dropWhile_cons_of_neg (by simp [hc])]

theorem StartsPlain.ne_close {text : String} (h : StartsPlain text) (rest tail : List Char) :
    text.toList ++ rest ≠ ']' :: tail ∧ text.toList ++ rest ≠ '\x7d' :: tail := by
  obtain ⟨c, t, htext, -, hbracket, hbrace⟩ := h
  rw [htext, List.cons_append]
  exact ⟨fun h => hbracket (List.cons.inj h).1, fun h => hbrace (List.cons.inj h).1⟩

/-- The characters of a class that has no space and no closing bracket. -/
theorem plain_of_class {p : Char → Bool}
    (hp : [' ', '\t', '\n', '\r', ']', '\x7d'].any p = false) {c : Char} (hc : p c = true) :
    isSpace c = false ∧ c ≠ ']' ∧ c ≠ '\x7d' := by
  have hne : ∀ b ∈ [' ', '\t', '\n', '\r', ']', '\x7d'], c ≠ b := by
    rintro b hb rfl
    exact absurd hc (List.any_eq_false.1 hp c hb)
  simpa [isSpace, and_assoc] using hne

theorem startsPlain_chars {n : Numeral} (h : n.WellFormed) : StartsPlain (String.ofList n.chars) := by
  obtain ⟨c, tail, hchars, hc⟩ := h.head []
  rw [List.append_nil] at hchars
  refine ⟨c, tail, by rw [String.toList_ofList, hchars], ?_⟩
  rcases hc with rfl | hc
  · decide
  · exact plain_of_class (by decide) hc

theorem startsPlain_quoted (s : String) : StartsPlain (Text.quoted s) :=
  ⟨'"', Text.escapePoints (Text.points s) ++ ['"'], String.toList_ofList, by decide⟩

theorem startsPlain_propertyName (name : String) : StartsPlain (Text.propertyName name) := by
  rw [Text.propertyName_eq]
  split
  · rename_i hname
    obtain ⟨c, tail, hchars, hc, -⟩ := Text.isIdentifier_starts hname
    exact ⟨c, tail, hchars, plain_of_class (by decide) hc⟩
  · exact startsPlain_quoted name

theorem startsPlain_source {v : Value} (h : v.isReadable = true) : StartsPlain v.source := by
  have hbracket : StartsPlain "[" := ⟨'[', [], rfl, by decide⟩
  have hbrace : StartsPlain "\x7b " := ⟨'\x7b', [' '], rfl, by decide⟩
  cases v with
  | null => exact ⟨'n', _, rfl, by decide⟩
  | bool b => cases b <;> exact ⟨_, _, rfl, by decide⟩
  | int k =>
    obtain ⟨n, hn, hchars⟩ := Decimal.exists_integer k
    rw [Value.source, ← hchars]
    exact startsPlain_chars hn.wellFormed
  | float x => cases h
  | decimal d =>
    cases d with
    | finite negative coefficient exponent =>
      obtain ⟨n, hn, hchars⟩ := Decimal.exists_numeral negative coefficient exponent
      rw [Value.source, Decimal.text, ← hchars]
      exact startsPlain_chars hn.wellFormed
    | infinite negative => cases h
    | nan negative signaling payload => cases h
  | str s => exact startsPlain_quoted s
  | bytes content => cases h
  | list items => exact (hbracket.append _).append _
  | tuple items => exact (hbracket.append _).append _
  | map entries =>
    cases entries with
    | nil => exact ⟨'\x7b', _, rfl, by decide⟩
    | cons entry rest => exact (hbrace.append _).append _

/-! ## Brackets and braces -/

/-- A datum that holds no other data is read as such. -/
theorem read_of_readScalar {fuel : Nat} {cs : List Char} {r : Datum × List Char} (hfuel : 0 < fuel)
    (h : readScalar cs = some r) : read fuel cs = some r := by
  obtain ⟨fuel, rfl⟩ := Nat.exists_eq_succ_of_ne_zero (Nat.pos_iff_ne_zero.1 hfuel)
  unfold read
  split
  · cases h
  · cases h
  · exact h

/-- The items of a sequence in brackets. -/
theorem read_array {fuel : Nat} {body : String} {data : List Datum} {rest : List Char}
    (hbody : StartsPlain body) (h : readItems fuel (body.toList ++ ']' :: rest) = some (data, rest)) :
    read (fuel + 1) (("[" ++ body ++ "]").toList ++ rest) = some (.array data, rest) := by
  have htext : ("[" ++ body ++ "]").toList ++ rest = '[' :: (body.toList ++ ']' :: rest) := by simp
  rw [htext]
  simp only [read, hbody.skip]
  split
  · rename_i heq
    exact absurd heq (hbody.ne_close _ _).1
  · rw [h]
    rfl

/-- The entries of a map in braces. -/
theorem read_object {fuel : Nat} {body : String} {data : List (String × Datum)} {rest : List Char}
    (hbody : StartsPlain body)
    (h : readEntries fuel (body.toList ++ ' ' :: '\x7d' :: rest) = some (data, rest)) :
    read (fuel + 1) (("\x7b " ++ body ++ " \x7d").toList ++ rest) = some (.object data, rest) := by
  have htext : ("\x7b " ++ body ++ " \x7d").toList ++ rest =
      '\x7b' :: ' ' :: (body.toList ++ ' ' :: '\x7d' :: rest) := by simp
  have hskip : skip (' ' :: (body.toList ++ ' ' :: '\x7d' :: rest)) =
      body.toList ++ ' ' :: '\x7d' :: rest := hbody.skip _
  rw [htext]
  simp only [read, hskip]
  split
  · rename_i heq
    exact absurd heq (hbody.ne_close _ _).2
  · rw [h]
    rfl

theorem startsPlain_join (separator : String) {texts : List String} (hne : texts ≠ [])
    (h : ∀ t ∈ texts, StartsPlain t) : StartsPlain (Text.join separator texts) := by
  match texts with
  | [] => exact absurd rfl hne
  | [t] => exact h t List.mem_cons_self
  | t :: next :: rest => exact ((h t List.mem_cons_self).append _).append _

/-! ## Items and entries -/

theorem ends_mark {c : Char} (h : c ∈ [',', ']', ' ', ':']) (rest : List Char) :
    Numeral.Ends (c :: rest) := by
  have hall : [',', ']', ' ', ':'].all (fun c => !continuesIdentifier c && c != '.') = true := by
    decide
  have hc := List.all_eq_true.1 hall c h
  simp only [Bool.and_eq_true, Bool.not_eq_true', bne_iff_ne] at hc
  exact Numeral.ends_cons hc.1 hc.2

theorem readItems_last {fuel : Nat} {cs rest : List Char} {datum : Datum}
    (h : read fuel cs = some (datum, ']' :: rest)) :
    readItems (fuel + 1) cs = some ([datum], rest) := by
  simp only [readItems, h]
  rfl

theorem separated_toList (text next : String) (tail : List Char) :
    (text ++ ", " ++ next).toList ++ tail = text.toList ++ ',' :: ' ' :: (next.toList ++ tail) := by
  simp

theorem length_separated (text next : String) :
    (text ++ ", " ++ next).toList.length = text.toList.length + 2 + next.toList.length := by
  simp only [String.toList_append, List.length_append]
  rfl

theorem readItems_next {fuel : Nat} {text next : String} {tail rest : List Char} {datum : Datum}
    {data : List Datum} (hnext : StartsPlain next)
    (h : read fuel (text.toList ++ ',' :: ' ' :: (next.toList ++ tail)) =
      some (datum, ',' :: ' ' :: (next.toList ++ tail)))
    (hitems : readItems fuel (next.toList ++ tail) = some (data, rest)) :
    readItems (fuel + 1) ((text ++ ", " ++ next).toList ++ tail) = some (datum :: data, rest) := by
  have hskip : skip (' ' :: (next.toList ++ tail)) = next.toList ++ tail := hnext.skip tail
  have hcomma : skip (',' :: ' ' :: (next.toList ++ tail)) = ',' :: ' ' :: (next.toList ++ tail) := rfl
  rw [separated_toList]
  simp only [readItems, h, hcomma, hskip, hitems]
  rfl

/-- The name of an entry and its value, up to what follows the entry. -/
theorem readEntries_entry {fuel : Nat} {name text : String} {tail after : List Char} {datum : Datum}
    (hname : Value.endsLine name = false) (htext : StartsPlain text)
    (h : read fuel (text.toList ++ tail) = some (datum, after)) :
    readEntries (fuel + 1) ((Text.propertyName name ++ ": " ++ text).toList ++ tail) =
      match skip after with
      | '\x7d' :: rest => some ([(name, datum)], rest)
      | ',' :: rest => (readEntries fuel (skip rest)).map fun r => ((name, datum) :: r.1, r.2)
      | _ => none := by
  have hcs : (Text.propertyName name ++ ": " ++ text).toList ++ tail =
      (Text.propertyName name).toList ++ ':' :: ' ' :: (text.toList ++ tail) := by simp
  have hread : readName ((Text.propertyName name).toList ++ ':' :: ' ' :: (text.toList ++ tail)) =
      some (name, ':' :: ' ' :: (text.toList ++ tail)) :=
    readName_propertyName hname (ends_mark (by decide) _)
  have hcolon : skip (':' :: ' ' :: (text.toList ++ tail)) = ':' :: ' ' :: (text.toList ++ tail) := rfl
  have hskip : skip (' ' :: (text.toList ++ tail)) = text.toList ++ tail := htext.skip tail
  rw [hcs]
  simp only [readEntries, hread, hcolon, hskip, h]

theorem readEntries_last {fuel : Nat} {name text : String} {tail rest : List Char} {datum : Datum}
    (hname : Value.endsLine name = false) (htext : StartsPlain text)
    (h : read fuel (text.toList ++ tail) = some (datum, ' ' :: '\x7d' :: rest)) :
    readEntries (fuel + 1) ((Text.propertyName name ++ ": " ++ text).toList ++ tail) =
      some ([(name, datum)], rest) := by
  rw [readEntries_entry hname htext h]
  rfl

theorem readEntries_next {fuel : Nat} {name text next : String} {tail rest : List Char}
    {datum : Datum} {data : List (String × Datum)} (hname : Value.endsLine name = false)
    (htext : StartsPlain text) (hnext : StartsPlain next)
    (h : read fuel (text.toList ++ ',' :: ' ' :: (next.toList ++ tail)) =
      some (datum, ',' :: ' ' :: (next.toList ++ tail)))
    (hentries : readEntries fuel (next.toList ++ tail) = some (data, rest)) :
    readEntries (fuel + 1) ((Text.propertyName name ++ ": " ++ text ++ ", " ++ next).toList ++ tail) =
      some ((name, datum) :: data, rest) := by
  have hskip : skip (' ' :: (next.toList ++ tail)) = next.toList ++ tail := hnext.skip tail
  have hcomma : skip (',' :: ' ' :: (next.toList ++ tail)) = ',' :: ' ' :: (next.toList ++ tail) := rfl
  rw [separated_toList, readEntries_entry hname htext h]
  simp only [hcomma, hskip, hentries]
  rfl

/-! ## Whole literals -/

theorem startsPlain_sourceAll {items : List Value} (h : Value.areReadable items = true) :
    ∀ t ∈ Value.sourceAll items, StartsPlain t := by
  induction items with
  | nil => simp [Value.sourceAll]
  | cons item rest ih =>
    simp only [Value.areReadable, Bool.and_eq_true] at h
    exact List.forall_mem_cons.2 ⟨startsPlain_source h.1, ih h.2⟩

theorem startsPlain_sourceEntries (entries : Entries) :
    ∀ t ∈ Value.sourceEntries entries, StartsPlain t := by
  induction entries with
  | nil => simp [Value.sourceEntries]
  | cons entry rest ih =>
    exact List.forall_mem_cons.2 ⟨((startsPlain_propertyName _).append _).append _, ih⟩

theorem haveReadable_cons {key value : Value} {rest : Entries}
    (h : Value.haveReadable ((key, value) :: rest) = true) :
    ∃ name, key.text? = some name ∧ Value.endsLine name = false ∧ value.isReadable = true ∧
      Value.haveReadable rest = true := by
  simp only [Value.haveReadable, Bool.and_eq_true] at h
  obtain ⟨⟨hkey, hvalue⟩, hrest⟩ := h
  obtain ⟨name, hname, hline⟩ := (Option.any_eq_true _ _).1 hkey
  exact ⟨name, hname, by simpa using hline, hvalue, hrest⟩

theorem sourceEntries_cons {key value : Value} {name : String} (h : key.text? = some name)
    (rest : Entries) : Value.sourceEntries ((key, value) :: rest) =
      (Text.propertyName name ++ ": " ++ value.source) :: Value.sourceEntries rest := by
  rw [Value.sourceEntries, h, Option.getD_some]

theorem length_entry (name text : String) :
    text.toList.length ≤ (Text.propertyName name ++ ": " ++ text).toList.length := by
  rw [String.toList_append, List.length_append]
  exact Nat.le_add_left _ _

/-- A literal that holds no other data, whatever the fuel beyond its length. -/
theorem read_scalar {text : String} {datum : Datum} (htext : StartsPlain text)
    (h : ∀ rest, Numeral.Ends rest → readScalar (text.toList ++ rest) = some (datum, rest))
    (fuel : Nat) (rest : List Char) (hfuel : text.toList.length ≤ fuel) (hrest : Numeral.Ends rest) :
    read fuel (text.toList ++ rest) = some (datum, rest) :=
  read_of_readScalar (Nat.lt_of_lt_of_le htext.length hfuel) (h rest hrest)

mutual
/-- The literal of a value is read back as the datum of the value, whatever follows it that does not
go on with a number or a name. -/
theorem read_source : ∀ {v : Value}, v.isReadable = true → ∃ datum, v.datum? = some datum ∧
    ∀ fuel rest, v.source.toList.length ≤ fuel → Numeral.Ends rest →
      read fuel (v.source.toList ++ rest) = some (datum, rest)
  | .null, h => by
    refine ⟨.null, rfl, read_scalar (startsPlain_source h) fun rest hrest => ?_⟩
    exact readScalar_word (by decide) (by decide) rfl hrest
  | .bool true, h => by
    refine ⟨.bool true, rfl, read_scalar (startsPlain_source h) fun rest hrest => ?_⟩
    exact readScalar_word (by decide) (by decide) rfl hrest
  | .bool false, h => by
    refine ⟨.bool false, rfl, read_scalar (startsPlain_source h) fun rest hrest => ?_⟩
    exact readScalar_word (by decide) (by decide) rfl hrest
  | .int k, h => by
    obtain ⟨n, hn, hchars⟩ := Decimal.exists_integer k
    refine ⟨.number k, rfl, read_scalar (startsPlain_source h) fun rest hrest => ?_⟩
    rw [Value.source, String.toList_ofList, ← hchars, readScalar_number hn.wellFormed hrest,
      Decimal.rational_of_spells_int hn]
  | .decimal (.finite negative coefficient exponent), h => by
    obtain ⟨n, hn, hchars⟩ := Decimal.exists_numeral negative coefficient exponent
    refine ⟨.number n.rational, ?_, read_scalar (startsPlain_source h) fun rest hrest => ?_⟩
    · rw [Value.datum?, Decimal.rational_of_spells hn, Option.map_some]
    · rw [Value.source, Decimal.text, String.toList_ofList, ← hchars]
      exact readScalar_number hn.wellFormed hrest
  | .decimal (.infinite _), h => by cases h
  | .decimal (.nan _ _ _), h => by cases h
  | .str s, h =>
    ⟨.text s, rfl, read_scalar (startsPlain_source h) fun rest _ => readScalar_quoted s rest⟩
  | .list items, h => by
    obtain ⟨data, hdata, hread⟩ := read_items items (by rwa [Value.isReadable] at h)
    exact ⟨.array data, by rw [Value.datum?, hdata, Option.map_some], hread⟩
  | .tuple items, h => by
    obtain ⟨data, hdata, hread⟩ := read_items items (by rwa [Value.isReadable] at h)
    exact ⟨.array data, by rw [Value.datum?, hdata, Option.map_some], hread⟩
  | .map [], h => by
    refine ⟨.object [], rfl, fun fuel rest hfuel _ => ?_⟩
    have htwo : 2 ≤ fuel := hfuel
    obtain ⟨fuel, rfl⟩ := Nat.exists_eq_add_one_of_ne_zero (show fuel ≠ 0 by omega)
    rfl
  | .map (entry :: entries), h => by
    rw [Value.isReadable] at h
    obtain ⟨data, hdata, hread⟩ :=
      readEntries_source (entry :: entries) (List.cons_ne_nil entry entries) h
    refine ⟨.object data, by rw [Value.datum?, hdata, Option.map_some], fun fuel rest hfuel _ => ?_⟩
    have hsource : (Value.map (entry :: entries)).source =
        "\x7b " ++ Text.join ", " (Value.sourceEntries (entry :: entries)) ++ " \x7d" := by
      rw [Value.source]
      exact List.cons_ne_nil entry entries
    have hlength : (Value.map (entry :: entries)).source.toList.length =
        (Text.join ", " (Value.sourceEntries (entry :: entries))).toList.length + 4 := by
      simp [hsource]
    obtain ⟨fuel, rfl⟩ := Nat.exists_eq_add_one_of_ne_zero (show fuel ≠ 0 by omega)
    rw [hsource]
    apply read_object
    · exact startsPlain_join _ (List.cons_ne_nil _ _) (startsPlain_sourceEntries _)
    · exact hread fuel rest (by omega)
  | .float x, h => by cases h
  | .bytes content, h => by cases h

/-- The items of a sequence, with the brackets around them. -/
theorem read_items : ∀ items : List Value, Value.areReadable items = true →
    ∃ data, Value.data? items = some data ∧
      ∀ fuel rest, ("[" ++ Text.join ", " (Value.sourceAll items) ++ "]").toList.length ≤ fuel →
        Numeral.Ends rest →
        read fuel (("[" ++ Text.join ", " (Value.sourceAll items) ++ "]").toList ++ rest) =
          some (.array data, rest)
  | [], _ => by
    refine ⟨[], rfl, fun fuel rest hfuel _ => ?_⟩
    have htwo : 2 ≤ fuel := hfuel
    obtain ⟨fuel, rfl⟩ := Nat.exists_eq_add_one_of_ne_zero (show fuel ≠ 0 by omega)
    rfl
  | item :: items, h => by
    obtain ⟨data, hdata, hread⟩ := readItems_source (item :: items) (List.cons_ne_nil item items) h
    refine ⟨data, hdata, fun fuel rest hfuel _ => ?_⟩
    have hlength : ("[" ++ Text.join ", " (Value.sourceAll (item :: items)) ++ "]").toList.length =
        (Text.join ", " (Value.sourceAll (item :: items))).toList.length + 2 := by simp
    obtain ⟨fuel, rfl⟩ := Nat.exists_eq_add_one_of_ne_zero (show fuel ≠ 0 by omega)
    apply read_array
    · exact startsPlain_join _ (List.cons_ne_nil _ _) (startsPlain_sourceAll h)
    · exact hread fuel rest (by omega)

/-- The items of a sequence up to the closing bracket. -/
theorem readItems_source : ∀ items : List Value, items ≠ [] → Value.areReadable items = true →
    ∃ data, Value.data? items = some data ∧
      ∀ fuel rest, (Text.join ", " (Value.sourceAll items)).toList.length < fuel →
        readItems fuel ((Text.join ", " (Value.sourceAll items)).toList ++ ']' :: rest) =
          some (data, rest)
  | [], hne, _ => absurd rfl hne
  | [item], _, h => by
    simp only [Value.areReadable, Bool.and_true] at h
    obtain ⟨datum, hdatum, hread⟩ := read_source h
    refine ⟨[datum], by simp [Value.data?, hdatum], fun fuel rest hfuel => ?_⟩
    obtain ⟨fuel, rfl⟩ := Nat.exists_eq_add_of_lt hfuel
    apply readItems_last
    exact hread _ _ (Nat.le_add_right _ _) (ends_mark (by decide) rest)
  | item :: next :: items, _, h => by
    rw [Value.areReadable, Bool.and_eq_true] at h
    have hplain := startsPlain_join ", " (List.cons_ne_nil _ _) (startsPlain_sourceAll h.2)
    obtain ⟨datum, hdatum, hread⟩ := read_source h.1
    obtain ⟨data, hdata, hnext⟩ :=
      readItems_source (next :: items) (List.cons_ne_nil next items) h.2
    refine ⟨datum :: data, by rw [Value.data?, hdatum, hdata]; rfl, fun fuel rest hfuel => ?_⟩
    have hlength := length_separated item.source (Text.join ", " (Value.sourceAll (next :: items)))
    have hjoin : Text.join ", " (Value.sourceAll (item :: next :: items)) =
        item.source ++ ", " ++ Text.join ", " (Value.sourceAll (next :: items)) := rfl
    rw [hjoin] at hfuel ⊢
    obtain ⟨fuel, rfl⟩ := Nat.exists_eq_add_one_of_ne_zero (show fuel ≠ 0 by omega)
    apply readItems_next hplain
    · exact hread fuel _ (by omega) (ends_mark (by decide) _)
    · exact hnext fuel rest (by omega)

/-- The entries of a map up to the closing brace. -/
theorem readEntries_source : ∀ entries : Entries, entries ≠ [] → Value.haveReadable entries = true →
    ∃ data, Value.entryData? entries = some data ∧
      ∀ fuel rest, (Text.join ", " (Value.sourceEntries entries)).toList.length < fuel →
        readEntries fuel ((Text.join ", " (Value.sourceEntries entries)).toList ++
          ' ' :: '\x7d' :: rest) = some (data, rest)
  | [], hne, _ => absurd rfl hne
  | [(key, value)], _, h => by
    obtain ⟨name, hname, hline, hvalue, -⟩ := haveReadable_cons h
    obtain ⟨datum, hdatum, hread⟩ := read_source hvalue
    refine ⟨[(name, datum)], by simp [Value.entryData?, hname, hdatum], fun fuel rest hfuel => ?_⟩
    have hlength := length_entry name value.source
    rw [sourceEntries_cons hname, Value.sourceEntries, Text.join] at hfuel ⊢
    obtain ⟨fuel, rfl⟩ := Nat.exists_eq_add_one_of_ne_zero (show fuel ≠ 0 by omega)
    apply readEntries_last hline (startsPlain_source hvalue)
    exact hread fuel _ (by omega) (ends_mark (by decide) _)
  | (key, value) :: next :: entries, _, h => by
    obtain ⟨name, hname, hline, hvalue, hentries⟩ := haveReadable_cons h
    have hplain := startsPlain_join ", " (List.cons_ne_nil _ _)
      (startsPlain_sourceEntries (next :: entries))
    obtain ⟨datum, hdatum, hread⟩ := read_source hvalue
    obtain ⟨data, hdata, hnext⟩ :=
      readEntries_source (next :: entries) (List.cons_ne_nil next entries) hentries
    refine ⟨(name, datum) :: data, by rw [Value.entryData?, hname, hdatum, hdata]; rfl,
      fun fuel rest hfuel => ?_⟩
    have hlength := length_entry name value.source
    have hlengths := length_separated (Text.propertyName name ++ ": " ++ value.source)
      (Text.join ", " (Value.sourceEntries (next :: entries)))
    have hjoin : Text.join ", " (Value.sourceEntries ((key, value) :: next :: entries)) =
        Text.propertyName name ++ ": " ++ value.source ++ ", " ++
          Text.join ", " (Value.sourceEntries (next :: entries)) := by
      rw [sourceEntries_cons hname]
      rfl
    rw [hjoin] at hfuel ⊢
    obtain ⟨fuel, rfl⟩ := Nat.exists_eq_add_one_of_ne_zero (show fuel ≠ 0 by omega)
    apply readEntries_next hline (startsPlain_source hvalue) hplain
    · exact hread fuel _ (by omega) (ends_mark (by decide) _)
    · exact hnext fuel rest (by omega)
end

mutual
theorem isExpressible_of_isReadable : ∀ {v : Value}, v.isReadable = true → v.isExpressible = true
  | .null, _ => rfl
  | .bool _, _ => rfl
  | .int _, _ => rfl
  | .float _, h => by cases h
  | .decimal _, h => h
  | .str _, _ => rfl
  | .bytes _, h => by cases h
  | .list items, h => by
    rw [Value.isReadable] at h
    exact areExpressible_of_areReadable h
  | .tuple items, h => by
    rw [Value.isReadable] at h
    exact areExpressible_of_areReadable h
  | .map entries, h => by
    rw [Value.isReadable] at h
    exact haveExpressible_of_haveReadable h
theorem areExpressible_of_areReadable : ∀ {items : List Value}, Value.areReadable items = true →
    Value.areExpressible items = true
  | [], _ => rfl
  | item :: rest, h => by
    simp only [Value.areReadable, Bool.and_eq_true] at h
    simp only [Value.areExpressible, isExpressible_of_isReadable h.1,
      areExpressible_of_areReadable h.2, Bool.and_self]
theorem haveExpressible_of_haveReadable : ∀ {entries : Entries}, Value.haveReadable entries = true →
    Value.haveExpressible entries = true
  | [], _ => rfl
  | (key, value) :: rest, h => by
    obtain ⟨name, hname, -, hvalue, hrest⟩ := haveReadable_cons h
    simp only [Value.haveExpressible, hname, Option.isSome_some, isExpressible_of_isReadable hvalue,
      haveExpressible_of_haveReadable hrest, Bool.and_self]
end

end Datum

/-- A readable value has a literal unless an integer in it has too many digits, and the literal is the
whole text of the datum of the value: numbers are the same exact numbers, strings have the same
characters, and the items of sequences and the entries of maps come in the same order. -/
theorem Value.literal_reads_back {v : Value} (h : v.isReadable = true) :
    (v.hasLongInteger = false → ∃ text datum,
      v.literal = .ok text ∧ v.datum? = some datum ∧ Datum.ofText? text = some datum) ∧
      (v.hasLongInteger = true → v.literal = .error .longInteger) := by
  have hwritable := unwritable_of_isExpressible (Datum.isExpressible_of_isReadable h)
  constructor
  · intro hshort
    obtain ⟨datum, hdatum, hread⟩ := Datum.read_source h
    rw [hshort, if_neg Bool.false_ne_true] at hwritable
    refine ⟨v.source, datum, by rw [Value.literal, hwritable], hdatum, ?_⟩
    have hwhole := hread v.source.toList.length [] le_rfl Numeral.ends_nil
    rw [List.append_nil] at hwhole
    rw [Datum.ofText?, hwhole]
  · intro hlong
    rw [hlong, if_pos rfl] at hwritable
    rw [Value.literal, hwritable]

/-- The smallest integer with one digit too many has no literal. -/
theorem Value.literal_power_of_ten :
    (Value.int (10 ^ Decimal.digitLimit)).isReadable = true ∧
      (Value.int (10 ^ Decimal.digitLimit)).literal = .error .longInteger := by
  have hlong : Decimal.isLong (10 ^ Decimal.digitLimit) = true := by
    rw [Decimal.isLong_iff, Int.natAbs_pow]
    exact Nat.pow_le_pow_left (by decide) Decimal.digitLimit
  refine ⟨rfl, ?_⟩
  simp only [Value.literal, Value.unwritable?, hlong, if_true]

/-- A map with names of both spellings, whose values hold what looks like the marks around them. -/
theorem Value.literal_reads_back_nested :
    (Value.map [(.str "a_1", .list [.decimal (.finite true 1200 (-10)), .int (-7), .map []]),
      (.str "b: \x7d\n", .tuple [.str "\", ]\t\u007f😀", .bool false, .null])]).isReadable = true ∧
    ∃ text datum,
      (Value.map [(.str "a_1", .list [.decimal (.finite true 1200 (-10)), .int (-7), .map []]),
        (.str "b: \x7d\n", .tuple [.str "\", ]\t\u007f😀", .bool false, .null])]).literal = .ok text ∧
      (Value.map [(.str "a_1", .list [.decimal (.finite true 1200 (-10)), .int (-7), .map []]),
        (.str "b: \x7d\n", .tuple [.str "\", ]\t\u007f😀", .bool false, .null])]).datum? =
          some datum ∧
      Datum.ofText? text = some datum :=
  ⟨by decide +kernel, (literal_reads_back (by decide +kernel)).1 (by decide +kernel)⟩

end Schemata
