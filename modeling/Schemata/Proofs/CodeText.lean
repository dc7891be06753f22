import Schemata.Proofs.Lexing
import Schemata.Rule.Form
/-!
The lexical structure of literals and of composed code.

Numbers have neither brackets nor quotes, so that every literal lexes, and all brackets that composed
code adds to its parts match.

Component: the text of code, `Code.text`, and of literals, `Value.source`. Main results:
- `Value.source_lexes` — the source of every literal lexes;
- `Text.lexes_line` — so does a line of its own inside an array, an object or a function.
-/

namespace Schemata

open Text (isPlain isOuter anywhere Lexes Passes)

/-! ## Numbers -/

namespace Text

/-- The characters that numbers are written with. -/
def isNumeral (c : Char) : Bool := c.isDigit || ['-', '+', '.', 'e', 'E'].contains c

theorem isPlain_of_isNumeral {c : Char} (h : isNumeral c = true) : isPlain c = true :=
  isPlain_of_class (by decide) h

/-- The characters of numbers and of the words that stand for what is no number. -/
def isNumberChar (c : Char) : Bool := c.isAlphanum || ['-', '+', '.'].contains c

theorem isNumberChar_of_isNumeral {c : Char} (h : isNumeral c = true) : isNumberChar c = true := by
  have hothers : ∀ c ∈ ['-', '+', '.', 'e', 'E'], isNumberChar c = true :=
    List.all_eq_true.1 rfl
  rcases Bool.or_eq_true_iff.1 h with h | h
  · simp [isNumberChar, Char.isAlphanum, h]
  · exact hothers c (List.contains_iff_mem.1 h)

theorem isPlain_of_isNumberChar {c : Char} (h : isNumberChar c = true) : isPlain c = true :=
  isPlain_of_class (by decide) h

end Text

open Text (isNumeral isPlain_of_isNumeral isNumberChar isNumberChar_of_isNumeral)

namespace Decimal

theorem digits_numeral (n : Nat) : ∀ c ∈ digits n, isNumeral c = true :=
  fun _ hc => Bool.or_eq_true_iff.2 (.inl (isDigit_of_mem_digits hc))

theorem zeros_numeral (n : Nat) : ∀ c ∈ List.replicate n '0', isNumeral c = true := by
  intro c hc
  rw [List.eq_of_mem_replicate hc]
  rfl

theorem sign_numeral (negative : Bool) : ∀ c ∈ sign negative, isNumeral c = true := by
  cases negative <;> exact List.all_eq_true.1 rfl

theorem intDigits_numeral (n : Int) : ∀ c ∈ intDigits n, isNumeral c = true := by
  unfold intDigits
  split
  · exact List.forall_mem_cons.2 ⟨rfl, digits_numeral _⟩
  · exact digits_numeral _

theorem signedDigits_numeral (n : Int) : ∀ c ∈ signedDigits n, isNumeral c = true := by
  refine List.forall_mem_cons.2 ⟨?_, digits_numeral _⟩
  split <;> rfl

theorem pointed_numeral {ds : List Char} (h : ∀ c ∈ ds, isNumeral c = true) (places : Nat) :
    ∀ c ∈ pointed ds places, isNumeral c = true := by
  unfold pointed
  split
  · exact h
  · split
    · refine List.forall_mem_append.2 ⟨fun c hc => h c (List.mem_of_mem_take hc), ?_⟩
      exact List.forall_mem_cons.2 ⟨rfl, fun c hc => h c (List.mem_of_mem_drop hc)⟩
    · refine List.forall_mem_append.2 ⟨?_, h⟩
      exact List.forall_mem_cons.2 ⟨rfl, List.forall_mem_cons.2 ⟨rfl, zeros_numeral _⟩⟩

theorem leading_numeral {ds : List Char} (h : ∀ c ∈ ds, isNumeral c = true) :
    ∀ c ∈ leading ds, isNumeral c = true := by
  unfold leading
  split
  · exact h
  · exact h
  · rw [List.forall_mem_cons] at h ⊢
    exact ⟨h.1, List.forall_mem_cons.2 ⟨rfl, h.2⟩⟩

theorem chars_numeral {d : Decimal} (h : d.isFinite = true) : ∀ c ∈ d.chars, isNumeral c = true := by
  cases d with
  | finite negative coefficient exponent =>
    refine List.forall_mem_append.2 ⟨sign_numeral negative, ?_⟩
    simp only [numeral]
    split
    · exact pointed_numeral (digits_numeral _) _
    · refine List.forall_mem_append.2 ⟨leading_numeral (digits_numeral _), ?_⟩
      exact List.forall_mem_cons.2 ⟨rfl, signedDigits_numeral _⟩
  | infinite negative => cases h
  | nan negative signaling payload => cases h

theorem sign_numberChar (negative : Bool) : ∀ c ∈ sign negative, isNumberChar c = true :=
  fun c hc => isNumberChar_of_isNumeral (sign_numeral negative c hc)

theorem chars_numberChar (d : Decimal) : ∀ c ∈ d.chars, isNumberChar c = true := by
  cases d with
  | finite negative coefficient exponent =>
    exact fun c hc => isNumberChar_of_isNumeral (chars_numeral rfl c hc)
  | infinite negative =>
    exact List.forall_mem_append.2 ⟨sign_numberChar negative, List.all_eq_true.1 rfl⟩
  | nan negative signaling payload =>
    refine List.forall_mem_append.2 ⟨List.forall_mem_append.2 ⟨sign_numberChar negative, ?_⟩, ?_⟩
    · cases signaling <;> exact List.all_eq_true.1 rfl
    · split
      · simp
      · exact fun c hc => isNumberChar_of_isNumeral (digits_numeral payload c hc)

end Decimal

namespace Binary64

theorem decimalChars_numeral (coefficient : Nat) (exponent : Int) :
    ∀ c ∈ decimalChars coefficient exponent, isNumeral c = true := by
  simp only [decimalChars]
  have hdigits := Decimal.digits_numeral coefficient
  split
  · refine List.forall_mem_append.2 ⟨List.forall_mem_append.2 ⟨?_, ?_⟩, Decimal.digits_numeral _⟩
    · exact Decimal.leading_numeral hdigits
    · refine List.forall_mem_cons.2 ⟨rfl, List.forall_mem_cons.2 ⟨?_, Decimal.zeros_numeral _⟩⟩
      split <;> rfl
  · split
    · refine List.forall_mem_append.2 ⟨List.forall_mem_append.2 ⟨hdigits, ?_⟩, ?_⟩
      · exact Decimal.zeros_numeral _
      · exact List.all_eq_true.1 rfl
    · exact Decimal.pointed_numeral hdigits _

/-- A finite number is zero or has the digits of some decimal. -/
theorem chars_finite (negative : Bool) (significand : Nat) (exponent : Int) :
    ∃ c e, chars (.finite negative significand exponent) =
      Decimal.sign negative ++ if significand = 0 then "0.0".toList else decimalChars c e := by
  rw [chars]
  generalize shortest significand exponent = digits
  obtain ⟨c, e⟩ := digits
  exact ⟨c, e, rfl⟩

theorem chars_numeral {x : Binary64} (h : x.isFinite = true) : ∀ c ∈ x.chars, isNumeral c = true := by
  cases x with
  | finite negative significand exponent =>
    obtain ⟨c, e, hchars⟩ := chars_finite negative significand exponent
    rw [hchars]
    refine List.forall_mem_append.2 ⟨Decimal.sign_numeral negative, ?_⟩
    split
    · exact List.all_eq_true.1 rfl
    · exact decimalChars_numeral c e
  | infinite negative => cases h
  | nan => cases h

theorem chars_numberChar (x : Binary64) : ∀ c ∈ x.chars, isNumberChar c = true := by
  cases x with
  | finite negative significand exponent =>
    exact fun c hc => isNumberChar_of_isNumeral (chars_numeral rfl c hc)
  | infinite negative =>
    exact List.forall_mem_append.2 ⟨Decimal.sign_numberChar negative, List.all_eq_true.1 rfl⟩
  | nan => exact List.all_eq_true.1 rfl

end Binary64

namespace Text

variable {outer : Char → Bool}

theorem lexes_chars {cs : List Char} (h : ∀ c ∈ cs, isPlain c = true) :
    Lexes anywhere (String.ofList cs) := lexes_plain (by rwa [String.toList_ofList])

theorem lexes_identifier {name : String} (h : isIdentifier name = true) : Lexes isOuter name :=
  lexes_outer (isOuter_of_isIdentifier h)

theorem lexes_propertyName (name : String) : Lexes anywhere (propertyName name) := by
  rw [propertyName_eq]
  split
  · rename_i h
    exact (lexes_identifier h).weaken
  · exact lexes_quoted name rfl

/-- A colon between a name and a text. -/
theorem lexes_entry (name : String) {text : String} (h : Lexes anywhere text) :
    Lexes anywhere (propertyName name ++ ": " ++ text) :=
  ((lexes_propertyName name).append (by decide)).append h

theorem lexes_list {texts : List String} (h : ∀ t ∈ texts, Lexes anywhere t) :
    Lexes outer ("[" ++ join ", " texts ++ "]") :=
  lexes_bracketed (b := .square) rfl rfl (lexes_join (by decide) h)

end Text

/-! ## Literals -/

namespace Value

open Text

mutual
/-- The source of every literal lexes. -/
theorem source_lexes : ∀ v : Value, Lexes anywhere v.source
  | null => by decide
  | bool b => by cases b <;> decide
  | int n => lexes_chars fun c hc => isPlain_of_isNumeral (Decimal.intDigits_numeral n c hc)
  | float x => lexes_chars fun c hc => isPlain_of_isNumberChar (x.chars_numberChar c hc)
  | decimal d => lexes_chars fun c hc => isPlain_of_isNumberChar (d.chars_numberChar c hc)
  | str s => lexes_quoted s rfl
  | bytes _ => passes_nil _
  | list items => lexes_list (sourceAll_lexes items)
  | tuple items => lexes_list (sourceAll_lexes items)
  | map [] => by decide
  | map (entry :: rest) =>
    lexes_bracketed (b := .curly) rfl rfl
      (lexes_join (by decide) (sourceEntries_lexes (entry :: rest)))
theorem sourceAll_lexes : ∀ items : List Value, ∀ t ∈ sourceAll items, Lexes anywhere t
  | [] => by simp [sourceAll]
  | item :: rest => List.forall_mem_cons.2 ⟨source_lexes item, sourceAll_lexes rest⟩
theorem sourceEntries_lexes : ∀ entries : Entries, ∀ t ∈ sourceEntries entries, Lexes anywhere t
  | [] => by simp [sourceEntries]
  | (_, value) :: rest =>
    List.forall_mem_cons.2 ⟨lexes_entry _ (source_lexes value), sourceEntries_lexes rest⟩
end

end Value

namespace Text

/-! ## Access to properties -/

theorem lexes_accessor (first : Bool) (segment : List CodePoint) :
    Lexes anywhere (Reference.accessor first segment) := by
  unfold Reference.accessor
  split
  · rename_i name h
    refine Lexes.append ?_ (lexes_identifier (identifierOf?_eq_some.1 h).2).weaken
    cases first <;> decide
  · refine lexes_bracketed (b := .square) (Passes.append (q := .code []) ?_ rfl) rfl ?_
    · cases first <;> rfl
    · exact lexes_quotedPoints segment rfl

theorem lexes_accessChain (segments : List String) :
    Lexes anywhere (Reference.accessChain segments) := by
  cases segments with
  | nil => decide
  | cons segment segments =>
    refine Lexes.append (Lexes.append (by decide) (lexes_accessor true _)) ?_
    exact lexes_concat (List.forall_mem_map.2 fun segment _ => lexes_accessor false segment)

/-! ## Composed code -/

variable {outer : Char → Bool}

theorem lexes_call {callee : String} {args : List String} (hc : Lexes outer callee)
    (ha : ∀ a ∈ args, Lexes anywhere a) : Lexes outer (callText callee args) :=
  lexes_bracketed (b := .round) (Passes.append hc rfl) rfl (lexes_join (by decide) ha)

theorem lexes_method {precedence : Precedence} {target name : String} {args : List String}
    (hdot : Lexes outer ".") (ht : Lexes outer target) (hn : Lexes outer name)
    (ha : ∀ a ∈ args, Lexes anywhere a) : Lexes outer (methodText precedence target name args) := by
  refine (Lexes.append ?_ hdot).append (lexes_call hn ha)
  split
  · exact lexes_bracketed (b := .round) rfl rfl ht.weaken
  · exact ht

/-- A line of its own inside an array, an object or a function. -/
theorem lexes_line {text stop : String} (ht : Lexes anywhere text) (hs : Lexes anywhere stop) :
    Lexes anywhere (indentation ++ indent text ++ stop) :=
  (Lexes.append (by decide) (Passes.indent rfl ht)).append hs

theorem lexes_array {items : List String} (h : ∀ t ∈ items, Lexes anywhere t) :
    Lexes outer (arrayText items) := by
  unfold arrayText
  split
  · refine lexes_bracketed (b := .square) rfl rfl ?_
    exact lexes_concat (List.forall_mem_map.2 fun item hi => lexes_line (h item hi) (by decide))
  · exact lexes_list h

theorem lexes_object {properties : List (String × String)}
    (h : ∀ p ∈ properties, Lexes anywhere p.2) : Lexes outer (objectText properties) := by
  unfold objectText
  split
  · rfl
  · refine lexes_bracketed (b := .curly) rfl rfl ?_
    refine lexes_concat (List.forall_mem_map.2 fun p hp => Lexes.append ?_ (by decide))
    have hname := lexes_propertyName p.1
    exact ((Lexes.append (by decide) hname).append (by decide)).append (Passes.indent rfl (h p hp))

theorem lexes_record {fields : List (String × String)} (h : ∀ f ∈ fields, Lexes anywhere f.2) :
    Lexes outer (recordText fields) := by
  refine lexes_bracketed (b := .curly) rfl rfl (lexes_join (by decide) ?_)
  exact List.forall_mem_map.2 fun f hf => lexes_entry f.1 (h f hf)

theorem lexes_exclusion {values : List String} (h : ∀ t ∈ values, Lexes anywhere t) :
    Lexes anywhere (exclusionText values) :=
  (Lexes.append (by decide) (lexes_array h)).append (by decide)

theorem lexes_choice {cases : List (String × String)} {otherwise : String}
    (hquestion : Lexes outer " ? ") (hcolon : Lexes outer " : ")
    (hc : ∀ c ∈ cases, Lexes outer c.1 ∧ Lexes outer c.2) (ho : Lexes outer otherwise) :
    Lexes outer (choiceText cases otherwise) := by
  induction cases with
  | nil => exact ho
  | cons case rest ih =>
    rw [List.forall_mem_cons] at hc
    obtain ⟨⟨hcondition, hbranch⟩, hrest⟩ := hc
    exact (((hcondition.append hquestion).append hbranch).append hcolon).append (ih hrest)

theorem lexes_check (field : String) {schema : String} (h : Lexes anywhere schema) :
    Lexes anywhere (checkText field schema) := by
  have hopen : Passes anywhere (.code []) "check(" (.code [.round]) := rfl
  have hcomma : Passes anywhere (.code [.round]) ", " (.code [.round]) := rfl
  have hclose : Passes anywhere (.code [.round]) ");" (.code []) := rfl
  have hname : Lexes anywhere (quoted field) := lexes_quoted field rfl
  exact (((hopen.append hname.inside).append hcomma).append h.inside).append hclose

theorem concat_append (a b : List String) : concat (a ++ b) = concat a ++ concat b := by
  induction a with
  | nil => exact String.empty_append.symm
  | cons text a ih => rw [List.cons_append, concat, concat, ih, String.append_assoc]

/-- Passes over lines that each begin and end in code. -/
def scanLines (brackets : List Bracket) : List String → Option (List Bracket)
  | [] => some brackets
  | line :: rest =>
    match Place.scan anywhere (.code brackets) line.toList with
    | some (.code brackets) => scanLines brackets rest
    | _ => none

theorem passes_lines {lines : List String} {before after : List Bracket}
    (h : scanLines before lines = some after) :
    Passes anywhere (.code before)
      (concat (lines.map fun line => indentation ++ indent line ++ "\n")) (.code after) := by
  induction lines generalizing before with
  | nil => cases h; rfl
  | cons line rest ih =>
    simp only [scanLines] at h
    split at h
    · rename_i brackets hline
      have hblank : ∀ stack, Passes anywhere (.code stack) indentation (.code stack) := fun _ =>
        Lexes.passes (by decide : Lexes anywhere indentation) (.inr fun _ h => h)
      have hbreak : ∀ stack, Passes anywhere (.code stack) "\n" (.code stack) := fun _ =>
        Lexes.passes (by decide : Lexes anywhere "\n") (.inr fun _ h => h)
      exact (((hblank _).append (Passes.indent rfl hline)).append (hbreak _)).append (ih h)
    · cases h

theorem lexes_checks {statements : List String} (h : ∀ t ∈ statements, Lexes anywhere t) :
    Lexes anywhere (checksText statements) := by
  -- The brackets of the helper only match over all its lines.
  have hhelper : Lexes anywhere
      (concat (helperLines.map fun line => indentation ++ indent line ++ "\n")) :=
    passes_lines (by decide +kernel)
  refine lexes_bracketed (b := .curly) rfl rfl ?_
  rw [List.map_append, concat_append]
  refine hhelper.append (lexes_concat (List.forall_mem_map.2 fun t ht => ?_))
  exact lexes_line (h t ht) (by decide)

/-! ## Templates -/

/-- Passes over a template whose arguments all stand in code. -/
def scanPieces (p : Place) : List Piece → Option Place
  | [] => some p
  | .char c :: rest => (p.step anywhere c).bind fun q => scanPieces q rest
  | .argument _ :: rest =>
    match p with
    | .code _ => scanPieces p rest
    | .string _ _ => none

theorem passes_filled {args : List String} (ha : ∀ a ∈ args, Lexes anywhere a)
    {pieces : List Piece} {p q : Place} (h : scanPieces p pieces = some q) :
    Passes anywhere p (filledText args pieces) q := by
  induction pieces generalizing p with
  | nil => cases h; rfl
  | cons piece rest ih =>
    cases piece with
    | char c =>
      obtain ⟨r, hr, h⟩ := Option.bind_eq_some_iff.1 h
      refine Passes.append (q := r) ?_ (ih h)
      unfold Passes
      rw [String.toList_ofList]
      exact Place.scan_cons.2 ⟨r, hr, rfl⟩
    | argument i =>
      cases p with
      | string brackets escaped => cases h
      | code brackets =>
        have harg : Lexes anywhere (args.getD i "") := by
          rw [List.getD_eq_getElem?_getD]
          cases hi : args[i]? with
          | none => exact passes_nil _
          | some a => exact ha a (List.mem_of_getElem? hi)
        exact (harg.passes (.inr fun _ h => h)).append (ih h)

end Text

end Schemata
