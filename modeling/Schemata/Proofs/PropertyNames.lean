import Schemata.Proofs.FirstCase
import Schemata.Proofs.Location
import Schemata.Proofs.PropertyReading
/-!
The keys of objects and of maps, and the names of properties that they become.

Every object is written with one property per key, and so is every map inside a literal, however deep
it stands there. Their names are read back one by one, so that two keys become one property exactly if
they differ in nothing but the line break behind an identifier.

Component: the writer of objects, `Writing.object`, and of literals, `Value.literal`. Main results:
- `propertyNames?_source` — the names of a map are read from its literal;
- `object_properties` — an object is written with one property per key, in the order of the keys;
- `property_names_read` — which names are read back, and which keys become one property.
-/

namespace Schemata

/-! ## Maps inside literals -/

namespace Value

open Text (Lexes Passes anywhere propertyName bareName)
open Datum (isItem propertyNames?)

theorem lexes_numberChars {cs : List Char} (h : ∀ c ∈ cs, Text.isNumberChar c = true) :
    Lexes isItem (String.ofList cs) :=
  Datum.lexes_class (p := Text.isNumberChar) (by decide) (by decide) (by rwa [String.toList_ofList])

/-- All commas of a literal stand inside its brackets and strings. -/
theorem source_item (v : Value) : Lexes isItem v.source := by
  cases v with
  | null => decide
  | bool b => cases b <;> decide
  | int n =>
    refine lexes_numberChars fun c hc => ?_
    exact Text.isNumberChar_of_isNumeral (Decimal.intDigits_numeral n c hc)
  | float x => exact lexes_numberChars x.chars_numberChar
  | decimal d => exact lexes_numberChars d.chars_numberChar
  | str s => exact Text.lexes_quoted s rfl
  | bytes content => exact Text.passes_nil _
  | list items => exact Text.lexes_list (sourceAll_lexes items)
  | tuple items => exact Text.lexes_list (sourceAll_lexes items)
  | map entries =>
    cases entries with
    | nil => decide
    | cons entry rest =>
      refine Text.lexes_bracketed (b := .curly) rfl rfl (Text.lexes_join (by decide) ?_)
      exact sourceEntries_lexes (entry :: rest)

/-- The keys of a map that can be written are strings, and its values can be written. -/
theorem exists_fields {entries : Entries} (h : unwritableEntry? entries = none) :
    ∃ fields : List (String × Value), entries = fields.map (fun f => (.str f.1, f.2)) ∧
      ∀ f ∈ fields, f.2.unwritable? = none := by
  induction entries with
  | nil => exact ⟨[], rfl, by simp⟩
  | cons entry rest ih =>
    obtain ⟨key, value⟩ := entry
    simp only [ unwritableEntry?] at h
    split at h
    · cases h
    · rename_i hkey
      cases hvalue : unwritable? value with
      | some u => simp [hvalue] at h
      | none =>
        simp only [hvalue] at h
        obtain ⟨fields, rfl, hfields⟩ := ih h
        cases key <;> simp [text?] at hkey
        rename_i name
        exact ⟨(name, value) :: fields, rfl, List.forall_mem_cons.2 ⟨hvalue, hfields⟩⟩

theorem sourceEntries_fields (fields : List (String × Value)) :
    sourceEntries (fields.map fun f => (.str f.1, f.2)) =
      (fields.map fun f => (f.1, f.2.source)).map fun f => propertyName f.1 ++ ": " ++ f.2 := by
  induction fields with
  | nil => rfl
  | cons f rest ih =>
    rw [List.map_cons, Datum.sourceEntries_cons rfl, ih]
    rfl

/-- The names of a map are read from its literal. -/
theorem propertyNames?_source {entries : Entries} (h : unwritableEntry? entries = none) :
    ∃ names : List String, entries.map Prod.fst = names.map str ∧
      propertyNames? (map entries).source = some (names.map bareName) := by
  obtain ⟨fields, rfl, -⟩ := exists_fields h
  refine ⟨fields.map Prod.fst, by simp, ?_⟩
  cases fields with
  | nil => rfl
  | cons f rest =>
    have hsource : (map ((f :: rest).map fun f => (.str f.1, f.2))).source =
        Text.recordText ((f :: rest).map fun f => (f.1, f.2.source)) := by
      rw [Text.recordText, ← sourceEntries_fields (f :: rest)]
      rfl
    rw [hsource, Datum.propertyNames?_recordText (by simp)]
    · simp
    · exact List.forall_mem_map.2 fun f _ => source_item f.2

end Value

namespace Text

/-- A text stands in another one as a piece of code, outside all strings. -/
def StandsIn (part text : String) : Prop :=
  ∃ before after brackets, text = before ++ part ++ after ∧
    Passes anywhere (.code []) before (.code brackets)

theorem standsIn_self (text : String) : StandsIn text text := ⟨"", "", [], by simp, rfl⟩

theorem StandsIn.trans {part text whole : String} (h : StandsIn part text)
    (htext : StandsIn text whole) : StandsIn part whole := by
  obtain ⟨before, after, brackets, rfl, hbefore⟩ := h
  obtain ⟨before', after', brackets', rfl, hbefore'⟩ := htext
  refine ⟨before' ++ before, after ++ after', brackets ++ brackets', ?_, hbefore'.append ?_⟩
  · simp [String.append_assoc]
  · exact Place.scan_within (fun _ _ => .inr rfl) hbefore

theorem standsIn_join (separator : String) {part : String} {texts : List String}
    (hs : Lexes anywhere separator) (h : ∀ t ∈ texts, Lexes anywhere t) (hpart : part ∈ texts) :
    StandsIn part (join separator texts) := by
  fun_induction join separator texts with
  | case1 => cases hpart
  | case2 piece =>
    cases List.mem_singleton.1 hpart
    exact standsIn_self _
  | case3 piece next rest ih =>
    rw [List.forall_mem_cons] at h
    rcases List.mem_cons.1 hpart with rfl | hpart
    · exact ⟨"", separator ++ join separator (next :: rest), [], by simp [String.append_assoc], rfl⟩
    · exact (ih h.2 hpart).trans ⟨piece ++ separator, "", [], by simp, h.1.append hs⟩

theorem standsIn_bracketed {b : Bracket} {before text : String} (after : String)
    (hb : Passes anywhere (.code []) before (.code [b])) : StandsIn text (before ++ text ++ after) :=
  ⟨before, after, [b], rfl, hb⟩

theorem standsIn_entry (name value : String) : StandsIn value (propertyName name ++ ": " ++ value) :=
  ⟨propertyName name ++ ": ", "", [], by simp, (lexes_propertyName name).append (by decide)⟩

end Text

namespace Value

open Text (StandsIn)

theorem mem_sourceAll {items : List Value} {v : Value} (h : v ∈ items) :
    v.source ∈ sourceAll items := by
  induction items with
  | nil => cases h
  | cons item rest ih =>
    rcases List.mem_cons.1 h with rfl | h
    · exact List.mem_cons_self
    · exact List.mem_cons_of_mem _ (ih h)

theorem mem_sourceEntries {entries : Entries} {key v : Value} (h : (key, v) ∈ entries) :
    Text.propertyName (key.text?.getD "") ++ ": " ++ v.source ∈ sourceEntries entries := by
  induction entries with
  | nil => cases h
  | cons entry rest ih =>
    rcases List.mem_cons.1 h with rfl | h
    · exact List.mem_cons_self
    · exact List.mem_cons_of_mem _ (ih h)

theorem unwritable_of_mem {entries : Entries} (h : unwritableEntry? entries = none) {key v : Value}
    (hv : (key, v) ∈ entries) : v.unwritable? = none := by
  obtain ⟨fields, rfl, hfields⟩ := exists_fields h
  obtain ⟨f, hf, heq⟩ := List.mem_map.1 hv
  cases heq
  exact hfields f hf

theorem mem_of_unwritableItem? {items : List Value} (h : unwritableItem? items = none) :
    ∀ v ∈ items, v.unwritable? = none := by
  induction items with
  | nil => simp
  | cons item rest ih =>
    simp only [unwritableItem?] at h
    split at h
    · cases h
    · rename_i hitem
      exact List.forall_mem_cons.2 ⟨hitem, ih h⟩

theorem standsIn_items {items : List Value} {v : Value} (h : v ∈ items) :
    StandsIn v.source ("[" ++ Text.join ", " (sourceAll items) ++ "]") :=
  (Text.standsIn_join ", " (by decide) (sourceAll_lexes items) (mem_sourceAll h)).trans
    (Text.standsIn_bracketed (b := .square) "]" rfl)

theorem standsIn_entries {entries : Entries} {key v : Value} (h : (key, v) ∈ entries) :
    StandsIn v.source (map entries).source := by
  cases entries with
  | nil => cases h
  | cons entry rest =>
    have hentry := Text.standsIn_join ", " (by decide)
      (sourceEntries_lexes (entry :: rest)) (mem_sourceEntries h)
    exact ((Text.standsIn_entry _ _).trans hentry).trans
      (Text.standsIn_bracketed (b := .curly) " \x7d" rfl)

theorem mem_of_get? {entries : Entries} {name : String} {v : Value}
    (h : entries.get? name = some v) : ∃ key, (key, v) ∈ entries := by
  induction entries with
  | nil => cases h
  | cons entry rest ih =>
    obtain ⟨key, value⟩ := entry
    simp only [Entries.get?] at h
    split at h
    · cases h
      exact ⟨key, List.mem_cons_self⟩
    · obtain ⟨key', hmem⟩ := ih h
      exact ⟨key', List.mem_cons_of_mem _ hmem⟩

/-- One step into a value that can be written leads to a value that can, and whose literal stands in the
literal of the whole. -/
theorem step?_literal {v w : Value} {s : Step} (h : v.unwritable? = none)
    (hs : v.step? s = some w) : w.unwritable? = none ∧ StandsIn w.source v.source := by
  cases s with
  | key name =>
    obtain ⟨entries, hentries, hget⟩ := Option.bind_eq_some_iff.1 hs
    obtain ⟨key, hmem⟩ := mem_of_get? hget
    cases v <;> cases hentries
    exact ⟨unwritable_of_mem h hmem, standsIn_entries hmem⟩
  | index i =>
    simp only [step?] at hs
    split at hs
    · cases hs
    · obtain ⟨items, hitems, hget⟩ := Option.bind_eq_some_iff.1 hs
      have hmem := List.mem_of_getElem? hget
      cases v <;> cases hitems
      all_goals exact ⟨mem_of_unwritableItem? h w hmem, standsIn_items hmem⟩

theorem at?_literal {v w : Value} {steps : List Step} (h : v.unwritable? = none)
    (hat : v.at? steps = some w) : w.unwritable? = none ∧ StandsIn w.source v.source := by
  induction steps generalizing v with
  | nil =>
    cases hat
    exact ⟨h, Text.standsIn_self _⟩
  | cons s rest ih =>
    obtain ⟨u, hu, hrest⟩ := Option.bind_eq_some_iff.1 hat
    obtain ⟨hwritable, hstep⟩ := step?_literal h hu
    obtain ⟨hw, hstands⟩ := ih hwritable hrest
    exact ⟨hw, hstands.trans hstep⟩

end Value

namespace Writing

open Text (propertyName propertyNamePoints bareName barePoints joinPairs HasPair StandsIn)
open Datum (denotedName? denotedPoints? propertyNames?)

/-! ## Objects -/

variable {setting : Setting} {child : ChildWriter}

theorem applyChecks_calls (statements : List Code) (target : Code) :
    ∃ calls, applyChecks statements target = target.chainAll calls := by
  unfold applyChecks
  split
  · exact ⟨[], rfl⟩
  · exact ⟨[⟨"superRefine", [.checks statements]⟩], rfl⟩

theorem names_of_slotted {keys : List (String × Node)} {properties : List Property}
    (h : List.Forall₂ (Slotted setting child) keys properties) :
    properties.map Property.name = keys.map Prod.fst := by
  induction h with
  | nil => rfl
  | cons hone _ ih => rw [List.map_cons, List.map_cons, hone.name, ih]

/-- An object is written with one property per key, in the order of the keys. Its properties lex if all
that the level below writes for them does. -/
theorem object_properties {node : Node} {p q : Progress} {code : Code}
    (h : object setting child node p = .ok (code, q)) :
    ∃ properties calls, code = (Code.call "z.object" [.object properties]).chainAll calls ∧
      properties.map Prod.fst = (node.keys.getD []).map Prod.fst ∧
        ((∀ key ∈ node.keys.getD [], ∀ m ∈ propertyNodes key.2,
            growth.Holds Code.LexesOuter (child m)) →
          ∀ property ∈ properties, property.2.LexesOuter) := by
  obtain ⟨properties, p₁, hproperties, h⟩ := bind_ok.1 h
  obtain ⟨ruled, p₂, hruled, h⟩ := bind_ok.1 h
  cases h
  obtain ⟨rules, -, rfl⟩ := applyRules_ok (lift_ok.1 hruled).1
  have hslotted : List.Forall₂ (Slotted setting child) (node.keys.getD []) properties := by
    refine (mapM_gives hproperties).imp fun key property hgives => ?_
    obtain ⟨p, q, hrun⟩ := hgives
    exact property_slotted hrun
  obtain ⟨unknown, hunknown, -⟩ := applyUnknown_calls setting node
    (.call "z.object" [.object (properties.map fun p => (p.name, p.code))])
  obtain ⟨checks, hchecks⟩ := applyChecks_calls (properties.flatMap Property.statements)
    (Code.chainAll _ (unknown ++ rules))
  refine ⟨properties.map fun p => (p.name, p.code), unknown ++ rules ++ checks, ?_, ?_, ?_⟩
  · rw [hunknown, ← Code.chainAll_append, hchecks, ← Code.chainAll_append]
  · rw [List.map_map]
    exact names_of_slotted hslotted
  · intro hchild
    have hall : growth.Holds
        (fun properties => ∀ property ∈ properties, property.All Code.LexesOuter Code.LexesInner)
        ((node.keys.getD []).mapM fun key => property setting child key.1 key.2) :=
      Contract.holds_mapM fun key hkey =>
        property_holds Code.lexes_sorted.toComposed (fun _ _ _ => trivial) (hchild key hkey)
    refine List.forall_mem_map.2 fun property hproperty => ?_
    exact ((hall.1 p properties p₁ hproperties).1 property hproperty).1

theorem propertyNames?_object {properties : List (String × Code)}
    (h : ∀ property ∈ properties, property.2.LexesOuter) :
    propertyNames? (Code.object properties).text =
      some ((properties.map Prod.fst).map bareName) := by
  have hnames : (Code.namedTexts properties).map Prod.fst = properties.map Prod.fst := by
    clear h
    induction properties with
    | nil => rfl
    | cons property rest ih => exact congrArg (property.1 :: ·) ih
  rw [← hnames]
  exact Datum.propertyNames?_objectText
    (Code.forall_namedTexts fun property hp => Datum.lexes_item (h property hp))

/-- Every name is read back from the way it is written, except for an identifier with a line break at
its end, which is read without it, and for a name in which the halves of a surrogate pair stand side by
side, which is read with the two joined. An object is written with its keys for names, and these are read from
its text if what the level below writes lexes. The keys of a map inside a literal are strings, and are
read from the part of the literal that the map is. Different keys are read as different names exactly
if no key is another one with a line break behind it that counts as an identifier. -/
theorem property_names_read (name : String) (keys : List String) (setting : Setting)
    (child : ChildWriter) (node : Node) (p q : Progress) (code : Code) (v : Value) (text : String)
    (steps : List Step) (entries : Entries) :
    (denotedName? (propertyName name) = some (bareName name) ∧
      (denotedName? (propertyName name) = some name ↔ Value.endsLine name = false)) ∧
    (∀ points : List CodePoint,
      denotedPoints? (propertyNamePoints points) = some (joinPairs (barePoints points)) ∧
      (denotedPoints? (propertyNamePoints points) = some points ↔
        (∀ s, points = Text.points s → Value.endsLine s = false) ∧ ¬ HasPair points)) ∧
    (object setting child node p = .ok (code, q) →
      ∃ properties calls, code = (Code.call "z.object" [.object properties]).chainAll calls ∧
        properties.map Prod.fst = (node.keys.getD []).map Prod.fst ∧
          ((∀ key ∈ node.keys.getD [], ∀ m ∈ propertyNodes key.2,
              growth.Holds Code.LexesOuter (child m)) →
            propertyNames? (Code.object properties).text =
              some (((node.keys.getD []).map Prod.fst).map bareName))) ∧
    (v.literal = .ok text → v.at? steps = some (.map entries) →
      ∃ names : List String, entries.map Prod.fst = names.map .str ∧
        StandsIn (Value.map entries).source text ∧
          propertyNames? (Value.map entries).source = some (names.map bareName)) ∧
    ((∀ a ∈ keys, ∀ b ∈ keys, a ≠ b → bareName a ≠ bareName b) ↔
      ∀ a ∈ keys, Value.endsLine (a ++ "\n") = true → a ++ "\n" ∉ keys) := by
  refine ⟨⟨Datum.denotedName?_propertyName name, ?_⟩, fun points => ?_, ?_, ?_,
    Text.bareName_injOn_iff⟩
  · rw [Datum.denotedName?_propertyName, Option.some_inj, Text.bareName_eq_self_iff]
  · have hread := Datum.denotedPoints?_propertyNamePoints points
    refine ⟨hread, ?_⟩
    rw [hread, Option.some_inj, Text.joinPairs_barePoints_iff]
  · intro h
    obtain ⟨properties, calls, hcode, hnames, hlexes⟩ := object_properties h
    refine ⟨properties, calls, hcode, hnames, fun hchild => ?_⟩
    rw [propertyNames?_object (hlexes hchild), hnames]
  · intro htext hat
    unfold Value.literal at htext
    split at htext
    · cases htext
    · rename_i hwritable
      cases htext
      obtain ⟨hentries, hstands⟩ := Value.at?_literal hwritable hat
      obtain ⟨names, hkeys, hread⟩ := Value.propertyNames?_source hentries
      exact ⟨names, hkeys, hstands, hread⟩

/-- An object with a name in quotes that ends in a line break, and such a name in a map two steps into a
literal. -/
theorem property_names_read_quoted :
    let described (kind : String) (more : Entries) : Value := .map ((.str "type", .str kind) :: more)
    let raw : Value := described "object" [(.str "keys", .map
      [(.str "a", described "string" []), (.str "a, b: \n", described "number" [])])]
    let setting : Setting := ⟨{ maxDepth := 4 }, .builtin⟩
    let inner : Entries := [(.str "y", .list [.null, .null]), (.str "\"y\" \n", .int 1)]
    let v : Value := .list [.bool true, .map [(.str "x, y", .map inner)]]
    denotedName? (propertyName "a, b: \n") = some "a, b: \n" ∧
      (∃ root code q, Node.ofValue (4 : Nat) raw = .ok root ∧
        object setting (write setting 3) root {} = .ok (code, q) ∧
          ∃ properties calls, code = (Code.call "z.object" [.object properties]).chainAll calls ∧
            propertyNames? (Code.object properties).text = some ["a", "a, b: \n"]) ∧
      ∃ text, v.literal = .ok text ∧ StandsIn (Value.map inner).source text ∧
        propertyNames? (Value.map inner).source = some ["y", "\"y\" \n"] := by
  intro described raw setting inner v
  obtain ⟨root, hread, hbelow, hopen, hkind, hkeys, code, q, hrun⟩ : ∃ root,
      Node.ofValue (4 : Nat) raw = .ok root ∧ quotesBelow 4 root = true ∧ root.isOpen = true ∧
        root.kind = .object ∧ (root.keys.getD []).map Prod.fst = ["a", "a, b: \n"] ∧
          ∃ code q, object setting (write setting 3) root {} = .ok (code, q) :=
    ⟨_, rfl, by decide, rfl, rfl, rfl, _, _, rfl⟩
  obtain ⟨⟨-, hname⟩, -, hobject, hliteral, -⟩ := property_names_read "a, b: \n" [] setting
    (write setting 3) root {} q code v v.source [.index 1, .key "x, y"] inner
  refine ⟨hname.2 (by decide), ⟨root, code, q, hread, hrun, ?_⟩, v.source, rfl, ?_⟩
  · obtain ⟨properties, calls, hcode, -, hnames⟩ := hobject hrun
    have hlexes : ∀ key ∈ root.keys.getD [], ∀ m ∈ propertyNodes key.2,
        growth.Holds Code.LexesOuter (write setting 3 m) := by
      intro key hkey m hm
      refine write_lexes rfl (Node.read_wellNamed hread) (fun l n h => h.quotesPatterns hbelow) ?_
      exact ReachesProperty.reaches ⟨root, .root, hopen, hkind, hkey⟩ hm
    refine ⟨properties, calls, hcode, ?_⟩
    rw [hnames hlexes, hkeys]
    decide
  · obtain ⟨names, hnames, hstands, hsource⟩ := hliteral rfl rfl
    obtain rfl : names = ["y", "\"y\" \n"] :=
      List.map_injective_iff.2 (fun _ _ h => Value.str.inj h) hnames.symm
    exact ⟨hstands, hsource.trans (by decide)⟩

/-- Two keys of an object, and of a map, that differ in a line break: both are written as one name. So
are a character and the two halves of its surrogate pair. -/
theorem property_names_collide :
    let described (kind : String) (more : Entries) : Value := .map ((.str "type", .str kind) :: more)
    let raw : Value := described "object" [(.str "keys", .map
      [(.str "a", described "string" []), (.str "a\n", described "number" [])])]
    let object := "\x7b\n  a: z.string().optional(),\n  a\n: z.number().optional(),\n\x7d"
    let literal := "\x7b a: 1, a\n: 2 \x7d"
    denotedName? (propertyName "a\n") = some "a" ∧
      (Compiler.compile {} (.tree raw)).map Result.code =
        .ok ("z.object(" ++ object ++ ")") ∧
      propertyNames? object = some ["a", "a"] ∧
      (Value.map [(.str "a", .int 1), (.str "a\n", .int 2)]).literal = .ok literal ∧
      propertyNames? literal = some ["a", "a"] ∧
      propertyNamePoints [0xD83D, 0xDE00] = "\"\\ud83d\\ude00\"" ∧
      propertyNamePoints [0x1F600] = "\"\\ud83d\\ude00\"" := by
  intro described raw object literal
  exact ⟨by decide, rfl, by decide, rfl, by decide, by decide, by decide⟩

end Writing

end Schemata
