import Schemata.Proofs.CodeText
import Schemata.Proofs.Cutting
import Schemata.Proofs.LiteralReading
/-!
Reading the names of properties.

A name that is an identifier is written as it is, and any other name in quotes. To a reader of the code
an identifier ends with its last letter, and a line break behind it is space. So every name is read
back, except for an identifier with a line break at its end, which is read without it
(`Datum.denotedName?_propertyName`). Names with halves of surrogate pairs in them are read back with
the halves joined (`Datum.denotedPoints?_propertyNamePoints`).

The reader of an object cuts what stands between its braces at the commas outside all brackets and
strings, and takes the name before the colon of each piece. It finds the names of all objects whose
values have no comma outside their own brackets, on one line or on several.
-/

namespace Schemata

namespace Text

open Value (endsLine)

/-! ## Line breaks behind identifiers -/

/-- The name that a reader takes a property name for: an identifier that ends in a line break without
it, any other name as it is. -/
def bareName (name : String) : String :=
  if endsLine name then String.ofList name.toList.dropLast else name

theorem endsLine_iff {name : String} :
    endsLine name = true ↔ isIdentifier name = true ∧ ∃ w, name = w ++ "\n" := by
  rw [endsLine, Bool.and_eq_true, beq_iff_eq, List.getLast?_eq_some_iff]
  refine and_congr_right fun _ => ⟨?_, ?_⟩
  · rintro ⟨front, hfront⟩
    exact ⟨String.ofList front, String.toList_inj.1 (by simp [hfront])⟩
  · rintro ⟨w, rfl⟩
    exact ⟨w.toList, by simp⟩

theorem bareName_of_not_endsLine {name : String} (h : endsLine name = false) :
    bareName name = name := if_neg (by simp [h])

theorem bareName_line {w : String} (h : endsLine (w ++ "\n") = true) : bareName (w ++ "\n") = w := by
  rw [bareName, if_pos h]
  simp

theorem bareName_eq_self_iff {name : String} : bareName name = name ↔ endsLine name = false := by
  refine ⟨fun h => ?_, bareName_of_not_endsLine⟩
  by_contra hline
  obtain ⟨-, w, rfl⟩ := endsLine_iff.1 (by simpa using hline)
  rw [bareName_line (by simpa using hline)] at h
  simpa using congrArg (·.toList.length) h

/-- The name that a reader takes a property name for, by its code points. -/
def barePoints (name : List CodePoint) : List CodePoint :=
  match identifierOf? name with
  | some s => points (bareName s)
  | none => name

theorem barePoints_points (s : String) : barePoints (points s) = points (bareName s) := by
  rw [barePoints, identifierOf?_points]
  split
  · rename_i heq
    split at heq <;> cases heq
    rfl
  · rename_i heq
    split at heq
    · cases heq
    · rename_i hname
      rw [bareName_of_not_endsLine (by simp [endsLine, hname])]

/-- A name is read back exactly if it is no identifier with a line break at its end, and has no pair of
halves in it. -/
theorem joinPairs_barePoints_iff {name : List CodePoint} :
    joinPairs (barePoints name) = name ↔
      (∀ s, name = points s → endsLine s = false) ∧ ¬ HasPair name := by
  cases hname : identifierOf? name with
  | none =>
    have hbare : barePoints name = name := by rw [barePoints, hname]
    have hline : ∀ s, name = points s → endsLine s = false := by
      rintro s rfl
      have hnone : isIdentifier s = false := by
        simpa [identifierOf?_points] using hname
      simp [endsLine, hnone]
    rw [hbare, joinPairs_eq_self_iff]
    exact ⟨fun h => ⟨hline, h⟩, And.right⟩
  | some s =>
    obtain ⟨rfl, -⟩ := identifierOf?_eq_some.1 hname
    rw [barePoints_points, joinPairs_points]
    constructor
    · intro h
      refine ⟨fun t ht => ?_, not_hasPair_points s⟩
      obtain rfl := points_inj ht
      exact bareName_eq_self_iff.1 (points_inj h)
    · rintro ⟨hline, -⟩
      rw [bareName_of_not_endsLine (hline s rfl)]

/-- An identifier ends in one line break at most. -/
theorem continues_of_endsLine {w : String} (h : endsLine (w ++ "\n") = true) :
    ∀ c ∈ w.toList, continuesIdentifier c = true := by
  obtain ⟨front, hfront, hname | hname⟩ := isIdentifier_cases (endsLine_iff.1 h).1
  · have hbreak : '\n' ∈ front := by
      rw [← String.toList_ofList (l := front), ← hname]
      simp
    exact absurd (hfront '\n' hbreak) (by decide)
  · have hw : w.toList = front := by simpa using congrArg String.toList hname
    rwa [hw]

theorem not_endsLine_of_endsLine {w : String} (h : endsLine (w ++ "\n") = true) :
    endsLine w = false := by
  by_contra hline
  obtain ⟨-, w', rfl⟩ := endsLine_iff.1 (by simpa using hline)
  exact absurd (continues_of_endsLine h '\n' (by simp)) (by decide)

theorem bareName_cases (name : String) :
    endsLine name = false ∧ bareName name = name ∨
      endsLine name = true ∧ name = bareName name ++ "\n" := by
  cases hline : endsLine name with
  | false => exact .inl ⟨rfl, bareName_of_not_endsLine hline⟩
  | true =>
    obtain ⟨-, w, rfl⟩ := endsLine_iff.1 hline
    exact .inr ⟨rfl, by rw [bareName_line hline]⟩

/-- Names that are one name to a reader differ in the line break behind an identifier at most. -/
theorem eq_or_line_of_bareName_eq {a b : String} (h : bareName a = bareName b) :
    a = b ∨ (a = b ++ "\n" ∧ endsLine a = true) ∨ (b = a ++ "\n" ∧ endsLine b = true) := by
  rcases bareName_cases a with ⟨-, ha⟩ | ⟨hline, ha⟩ <;>
    rcases bareName_cases b with ⟨-, hb⟩ | ⟨hline', hb⟩
  · exact .inl (by rw [← ha, h, hb])
  · exact .inr (.inr ⟨by rw [hb, ← h, ha], hline'⟩)
  · exact .inr (.inl ⟨by rw [ha, h, hb], hline⟩)
  · exact .inl (by rw [ha, h, ← hb])

/-- Different keys have different names to a reader exactly if no key is another one that is an
identifier, with a line break at its end. -/
theorem bareName_injOn_iff {keys : List String} :
    (∀ a ∈ keys, ∀ b ∈ keys, a ≠ b → bareName a ≠ bareName b) ↔
      ∀ a ∈ keys, endsLine (a ++ "\n") = true → a ++ "\n" ∉ keys := by
  constructor
  · intro hdistinct a ha hline hmem
    refine hdistinct _ hmem a ha (fun h => ?_) ?_
    · simpa using congrArg (·.toList.length) h
    · rw [bareName_line hline, bareName_of_not_endsLine (not_endsLine_of_endsLine hline)]
  · intro hlines a ha b hb hne h
    rcases eq_or_line_of_bareName_eq h with rfl | ⟨rfl, hline⟩ | ⟨rfl, hline⟩
    · exact hne rfl
    · exact hlines b hb hline ha
    · exact hlines a ha hline hb

end Text

namespace Datum

open Reader (skip isSpace)
open Text (propertyName bareName continuesIdentifier Lexes)

/-! ## Reading names -/

/-- The name that a text is, with space around it. -/
def denotedName? (text : String) : Option String :=
  match readName (skip text.toList) with
  | some (name, rest) => if skip rest = [] then some name else none
  | none => none

/-- The name of the property that a text begins with: what stands before its colon. -/
def propertyOf? (text : String) : Option String :=
  match readName (skip text.toList) with
  | some (name, rest) => if (skip rest).head? = some ':' then some name else none
  | none => none

theorem skip_append {gap : List Char} (h : gap.all isSpace = true) (rest : List Char) :
    skip (gap ++ rest) = skip rest :=
  List.dropWhile_append_of_pos (List.all_eq_true.1 h)

/-- A property name is read up to the line break that may stand at its end. -/
theorem readName_bareName (name : String) {rest : List Char} (hrest : Numeral.Ends rest) :
    ∃ gap : List Char, gap.all isSpace = true ∧
      readName ((propertyName name).toList ++ rest) = some (bareName name, gap ++ rest) := by
  cases hline : Value.endsLine name with
  | false =>
    rw [Text.bareName_of_not_endsLine hline]
    exact ⟨[], rfl, readName_propertyName hline hrest⟩
  | true =>
    obtain ⟨hname, w, rfl⟩ := Text.endsLine_iff.1 hline
    obtain ⟨c, tail, hchars, hc, -⟩ := Text.isIdentifier_starts hname
    have hword := Text.continues_of_endsLine hline
    have hbreak : Numeral.Ends ('\n' :: rest) := Numeral.ends_cons (by decide) (by decide)
    have htext : (propertyName (w ++ "\n")).toList ++ rest = w.toList ++ '\n' :: rest := by
      simp [Text.propertyName_eq, hname]
    -- The line break ends the word, and is the space behind it.
    refine ⟨['\n'], rfl, ?_⟩
    rw [Text.bareName_line hline, htext]
    rw [String.toList_append, List.append_eq_cons_iff] at hchars
    rcases hchars with ⟨-, hfirst⟩ | ⟨tail', hw, -⟩
    · obtain ⟨rfl, -⟩ : '\n' = c ∧ tail = [] := by simpa using hfirst
      exact absurd hc (by decide)
    · exact readName_word hw hc hword hbreak

/-- A property name with space before it is read, and only space is left before what follows. -/
theorem readName_spaced (gap : List Char) (hgap : gap.all isSpace = true) (name : String)
    {rest : List Char} (hrest : Numeral.Ends rest) :
    ∃ after, readName (skip (gap ++ ((propertyName name).toList ++ rest))) =
      some (bareName name, after) ∧ skip after = skip rest := by
  obtain ⟨behind, hbehind, hread⟩ := readName_bareName name hrest
  refine ⟨behind ++ rest, ?_, skip_append hbehind rest⟩
  rw [skip_append hgap, (startsPlain_propertyName name).skip, hread]

theorem denotedName?_propertyName (name : String) :
    denotedName? (propertyName name) = some (bareName name) := by
  obtain ⟨after, hread, hafter⟩ := readName_spaced [] rfl name Numeral.ends_nil
  rw [List.nil_append, List.append_nil] at hread
  have hnone : skip after = [] := hafter
  rw [denotedName?, hread]
  simp only [hnone, if_true]

theorem propertyOf?_propertyName {gap : String} (hgap : gap.toList.all isSpace = true)
    (name text : String) :
    propertyOf? (gap ++ (propertyName name ++ ": " ++ text)) = some (bareName name) := by
  obtain ⟨after, hread, hafter⟩ := readName_spaced gap.toList hgap name
    (ends_mark (c := ':') (by decide) (' ' :: text.toList))
  have hcolon : skip (':' :: ' ' :: text.toList) = ':' :: ' ' :: text.toList := rfl
  have htext : (gap ++ (propertyName name ++ ": " ++ text)).toList =
      gap.toList ++ ((propertyName name).toList ++ ':' :: ' ' :: text.toList) := by simp
  rw [propertyOf?, htext, hread]
  simp only [hafter, hcolon, List.head?_cons, if_true]

/-! ## Names with halves of surrogate pairs -/

/-- The code points of the name that a text is, with space around it. -/
def denotedPoints? (text : String) : Option (List CodePoint) :=
  match skip text.toList with
  | '"' :: rest =>
    match Reader.points rest with
    | some (name, rest) => if skip rest = [] then some name else none
    | none => none
  | _ => (denotedName? text).map Text.points

theorem denotedPoints?_quotedPoints (name : List CodePoint) :
    denotedPoints? (Text.quotedPoints name) = some (Text.joinPairs name) := by
  have hread := Reader.points_escape name []
  have htext : skip (Text.quotedPoints name).toList = '"' :: (Text.escapePoints name ++ ['"']) := by
    rw [Text.quotedPoints, String.toList_ofList]
    rfl
  simp only [denotedPoints?, htext, hread]
  rfl

theorem denotedPoints?_identifier {name : String} (h : Text.isIdentifier name = true) :
    denotedPoints? name = some (Text.points (bareName name)) := by
  obtain ⟨c, rest, hchars, hc, -⟩ := Text.isIdentifier_starts h
  have hskip : skip name.toList = name.toList := by
    have hplain := startsPlain_propertyName name
    rw [Text.propertyName_eq, if_pos h] at hplain
    simpa using hplain.skip []
  have hname := denotedName?_propertyName name
  rw [Text.propertyName_eq, if_pos h] at hname
  unfold denotedPoints?
  split
  · rename_i heq
    rw [hskip, hchars] at heq
    cases heq
    exact absurd hc (by decide)
  · rw [hname]
    rfl

/-- Every name is read back without a line break behind an identifier, and with the halves of pairs
joined. -/
theorem denotedPoints?_propertyNamePoints (name : List CodePoint) :
    denotedPoints? (Text.propertyNamePoints name) =
      some (Text.joinPairs (Text.barePoints name)) := by
  unfold Text.propertyNamePoints Text.barePoints
  cases hname : Text.identifierOf? name with
  | none => exact denotedPoints?_quotedPoints name
  | some s =>
    rw [Text.joinPairs_points]
    exact denotedPoints?_identifier (Text.identifierOf?_eq_some.1 hname).2

/-! ## Reading the names of an object -/

/-- The names of the properties that stand between commas. A comma may stand behind the last one. -/
def namesOf? : List String → Option (List String)
  | [] => some []
  | [last] => if skip last.toList = [] then some [] else (propertyOf? last).map fun name => [name]
  | piece :: next :: rest =>
    (propertyOf? piece).bind fun name => (namesOf? (next :: rest)).map (name :: ·)

/-- The names of the properties of an object, in the order of the text. -/
def propertyNames? (text : String) : Option (List String) :=
  match text.toList with
  | '\x7b' :: rest =>
    if rest.getLast? = some '\x7d' then
      (Text.cut [","] (String.ofList rest.dropLast)).bind fun cut => namesOf? cut.pieces
    else none
  | _ => none

theorem propertyNames?_braced (body : String) :
    propertyNames? ("\x7b" ++ body ++ "\x7d") =
      (Text.cut [","] body).bind fun cut => namesOf? cut.pieces := by
  have htext : ("\x7b" ++ body ++ "\x7d").toList = '\x7b' :: (body.toList ++ ['\x7d']) := by simp
  rw [propertyNames?, htext]
  simp

/-- The characters that may stand between the commas of an object, outside all brackets. -/
def isItem (c : Char) : Bool := c != ','

theorem separates_item : Text.Separates isItem [","] where
  starts := by decide
  apart := by decide

theorem join_cons (separator piece : String) {rest : List String} (h : rest ≠ []) :
    Text.join separator (piece :: rest) = piece ++ separator ++ Text.join separator rest := by
  cases rest with
  | nil => exact absurd rfl h
  | cons next rest => rfl

/-- Pieces without a comma outside their brackets are what a text is cut into. -/
theorem cut_join {pieces : List String} (hne : pieces ≠ []) (h : ∀ t ∈ pieces, Lexes isItem t) :
    ∃ cut, Text.cut [","] (Text.join "," pieces) = some cut ∧ cut.pieces = pieces := by
  obtain ⟨first, rest, rfl⟩ := List.exists_cons_of_ne_nil hne
  rw [List.forall_mem_cons] at h
  have htext : Text.join "," (first :: rest) = Text.Cut.text ⟨first, rest.map (",", ·)⟩ := by
    clear h hne
    induction rest generalizing first with
    | nil => simp [Text.join, Text.Cut.text, Text.concat]
    | cons next rest ih =>
      rw [join_cons "," first (List.cons_ne_nil next rest), ih next]
      simp [Text.Cut.text, Text.concat, String.append_assoc]
  refine ⟨⟨first, rest.map (",", ·)⟩, ?_, by simp [Text.Cut.pieces, Function.comp_def]⟩
  rw [htext]
  refine Text.cut_text separates_item h.1 fun item hitem => ?_
  obtain ⟨t, ht, rfl⟩ := List.mem_map.1 hitem
  exact ⟨by simp, h.2 t ht⟩

theorem skip_ne_nil_of_propertyOf? {text name : String} (h : propertyOf? text = some name) :
    skip text.toList ≠ [] := by
  intro hskip
  simp [propertyOf?, hskip, readName] at h

theorem namesOf?_cons {piece name : String} {rest names : List String}
    (hpiece : propertyOf? piece = some name) (hrest : namesOf? rest = some names) :
    namesOf? (piece :: rest) = some (name :: names) := by
  cases rest with
  | nil =>
    cases hrest
    rw [namesOf?, if_neg (skip_ne_nil_of_propertyOf? hpiece), hpiece]
    rfl
  | cons next rest => rw [namesOf?, hpiece, hrest]; rfl

/-! ## Lists of properties -/

/-- What stands between the braces of an object with some names: properties with commas between
them, and perhaps one behind the last. The values have no comma outside their brackets. -/
inductive Lists : String → List String → Prop where
  | blank {gap : String} (hgap : gap.toList.all isSpace = true) : Lists gap []
  | last (gap name : String) {value : String} (hgap : gap.toList.all isSpace = true)
    (hvalue : Lexes isItem value) : Lists (gap ++ (propertyName name ++ ": " ++ value)) [name]
  | next (gap name : String) {value body : String} {names : List String}
    (hgap : gap.toList.all isSpace = true) (hvalue : Lexes isItem value) (hbody : Lists body names) :
    Lists (gap ++ (propertyName name ++ ": " ++ value) ++ "," ++ body) (name :: names)

theorem isItem_of_class {p : Char → Bool} (hp : p ',' = false) {c : Char} (h : p c = true) :
    isItem c = true := by
  rw [isItem, bne_iff_ne]
  rintro rfl
  exact absurd h (by simp [hp])

/-- Text of a class of characters that has no comma, no bracket and no quote. -/
theorem lexes_class {p : Char → Bool} (hmarks : Text.marks.any p = false) (hcomma : p ',' = false)
    {text : String} (h : ∀ c ∈ text.toList, p c = true) : Lexes isItem text :=
  Text.Place.scan_plain (fun c hc => Text.isPlain_of_class hmarks (h c hc)) fun c hc =>
    .inr (isItem_of_class hcomma (h c hc))

theorem lexes_gap {gap : String} (h : gap.toList.all isSpace = true) : Lexes isItem gap :=
  lexes_class (by decide) (by decide) (List.all_eq_true.1 h)

theorem lexes_item {text : String} (h : Lexes Text.isOuter text) : Lexes isItem text :=
  h.passes (.inr fun _ => isItem_of_class (by decide))

theorem lexes_property {gap value : String} (hgap : gap.toList.all isSpace = true) (name : String)
    (hvalue : Lexes isItem value) :
    Lexes isItem (gap ++ (propertyName name ++ ": " ++ value)) := by
  refine (lexes_gap hgap).append (Lexes.append (Lexes.append ?_ (by decide)) hvalue)
  rw [Text.propertyName_eq]
  split
  · rename_i hname
    exact lexes_item (Text.lexes_identifier hname)
  · exact Text.lexes_quoted name rfl

/-- A list of properties is cut into one piece per property. -/
theorem Lists.exists_pieces {body : String} {names : List String} (h : Lists body names) :
    ∃ pieces, pieces ≠ [] ∧ body = Text.join "," pieces ∧ (∀ t ∈ pieces, Lexes isItem t) ∧
      namesOf? pieces = some (names.map bareName) := by
  induction h with
  | @blank gap hgap =>
    refine ⟨[gap], by simp, rfl, by simpa using lexes_gap hgap, ?_⟩
    have hnone : skip gap.toList = [] := by simpa [skip] using hgap
    rw [namesOf?, if_pos hnone]
    rfl
  | last gap name hgap hvalue =>
    refine ⟨[_], by simp, rfl, by simpa using lexes_property hgap name hvalue, ?_⟩
    exact namesOf?_cons (propertyOf?_propertyName hgap name _) rfl
  | next gap name hgap hvalue _ ih =>
    obtain ⟨pieces, hne, rfl, hlex, hnames⟩ := ih
    refine ⟨_ :: pieces, by simp, (join_cons "," _ hne).symm, ?_, ?_⟩
    · exact List.forall_mem_cons.2 ⟨lexes_property hgap name hvalue, hlex⟩
    · exact namesOf?_cons (propertyOf?_propertyName hgap name _) hnames

theorem Lists.propertyNames? {body : String} {names : List String} (h : Lists body names) :
    Datum.propertyNames? ("\x7b" ++ body ++ "\x7d") = some (names.map bareName) := by
  obtain ⟨pieces, hne, rfl, hlex, hnames⟩ := h.exists_pieces
  obtain ⟨cut, hcut, hpieces⟩ := cut_join hne hlex
  rw [propertyNames?_braced, hcut, Option.bind_some, hpieces, hnames]

theorem Lists.of_toList {body body' : String} {names : List String} (h : Lists body names)
    (htext : body'.toList = body.toList) : Lists body' names := String.toList_inj.1 htext ▸ h

/-- The properties of an object with one property per line. -/
theorem lists_lines {properties : List (String × String)}
    (h : ∀ p ∈ properties, Lexes isItem p.2) :
    Lists ("\n" ++ Text.concat (properties.map fun p =>
        Text.indentation ++ propertyName p.1 ++ ": " ++ Text.indent p.2 ++ ",\n"))
      (properties.map Prod.fst) := by
  induction properties with
  | nil => exact .blank rfl
  | cons p rest ih =>
    rw [List.forall_mem_cons] at h
    refine (Lists.next "\n  " p.1 rfl (Text.Passes.indent rfl h.1) (ih h.2)).of_toList ?_
    simp [Text.concat, Text.indentation]

/-- The properties of an object on one line. -/
theorem lists_fields {fields : List (String × String)} (hne : fields ≠ [])
    (h : ∀ f ∈ fields, Lexes isItem f.2) :
    Lists (" " ++ Text.join ", " (fields.map fun f => propertyName f.1 ++ ": " ++ f.2) ++ " ")
      (fields.map Prod.fst) := by
  induction fields with
  | nil => exact absurd rfl hne
  | cons f rest ih =>
    rw [List.forall_mem_cons] at h
    cases rest with
    | nil =>
      refine (Lists.last " " f.1 rfl (h.1.append (by decide : Lexes isItem " "))).of_toList ?_
      simp [Text.join]
    | cons next rest =>
      refine (Lists.next " " f.1 rfl h.1 (ih (List.cons_ne_nil next rest) h.2)).of_toList ?_
      simp [Text.join]

theorem propertyNames?_objectText {properties : List (String × String)}
    (h : ∀ p ∈ properties, Lexes isItem p.2) :
    propertyNames? (Text.objectText properties) = some ((properties.map Prod.fst).map bareName) := by
  cases properties with
  | nil => rfl
  | cons p rest =>
    rw [← (lists_lines h).propertyNames?]
    exact congrArg _ (String.toList_inj.1 (by simp [Text.objectText]))

theorem propertyNames?_recordText {fields : List (String × String)} (hne : fields ≠ [])
    (h : ∀ f ∈ fields, Lexes isItem f.2) :
    propertyNames? (Text.recordText fields) = some ((fields.map Prod.fst).map bareName) := by
  rw [← (lists_fields hne h).propertyNames?]
  exact congrArg _ (String.toList_inj.1 (by simp [Text.recordText]))

end Datum

end Schemata
