import Schemata.Code.Render
import Schemata.Proofs.PathText
import Schemata.Proofs.QuotedText
/-!
The lexical structure of generated text.

A reader passes over a text character by character and keeps the brackets that are open, and whether
it stands inside a string. It stops at a bracket that does not match, at a character in a string that
is no printable ASCII, and at a character outside all brackets that may not stand there. Text that
the reader passes with the brackets it started with can be put anywhere between brackets.

Component: generated text, read character by character. Main results:
- `step_code` — all that one character can do;
- `Lexes.passes` — what lexes on its own passes inside any brackets;
- `SelfContained.between` — self-contained text changes nothing about the text around it.
-/

namespace Schemata

inductive Bracket where
  | round
  | square
  | curly
deriving DecidableEq, Repr

namespace Bracket

def opened? (c : Char) : Option Bracket :=
  if c = '(' then some round
  else if c = '[' then some square
  else if c = '\x7b' then some curly
  else none

def closed? (c : Char) : Option Bracket :=
  if c = ')' then some round
  else if c = ']' then some square
  else if c = '\x7d' then some curly
  else none

end Bracket

namespace Text

/-- Brackets and quotes of all kinds. -/
def marks : List Char := ['(', ')', '[', ']', '\x7b', '\x7d', '"', '\x27', '\x60']

/-- Whether a character is neither a bracket nor a quote. -/
def isPlain (c : Char) : Bool := !marks.contains c

/-- The characters of names, dots and line breaks. -/
def isOuter (c : Char) : Bool := continuesIdentifier c || c == '.' || c == '\n'

/-- Where a reader stands: in code or in a string, there perhaps behind a backslash, and inside which
brackets, innermost first. -/
inductive Place where
  | code (brackets : List Bracket)
  | string (brackets : List Bracket) (escaped : Bool)
deriving DecidableEq, Repr

namespace Place

/-- Passes over one character. Outside all brackets only some characters may stand. -/
def step (outer : Char → Bool) : Place → Char → Option Place
  | code brackets, c =>
    match Bracket.opened? c, Bracket.closed? c with
    | some b, _ => some (code (b :: brackets))
    | none, some b => if brackets.head? = some b then some (code brackets.tail) else none
    | none, none =>
      if brackets.isEmpty && !outer c then none
      else if c = '"' then some (string brackets false)
      else if isPlain c then some (code brackets)
      else none
  | string brackets escaped, c =>
    if c.toNat < 0x20 ∨ 0x7E < c.toNat then none
    else if escaped then some (string brackets false)
    else if c = '"' then some (code brackets)
    else some (string brackets (c == '\\'))

/-- Passes over some characters. -/
def scan (outer : Char → Bool) (start : Place) (cs : List Char) : Option Place :=
  cs.foldlM (step outer) start

/-- The same place with more brackets around it. -/
def within (around : List Bracket) : Place → Place
  | code brackets => code (brackets ++ around)
  | string brackets escaped => string (brackets ++ around) escaped

end Place

/-- A reader passes over a text from one place to another. -/
def Passes (outer : Char → Bool) (start : Place) (text : String) (stop : Place) : Prop :=
  start.scan outer text.toList = some stop

/-- A text with brackets that match and strings that end. Outside all brackets it has only some of
the characters that are neither brackets nor quotes. -/
def Lexes (outer : Char → Bool) (text : String) : Prop := Passes outer (.code []) text (.code [])

instance (outer : Char → Bool) (text : String) : Decidable (Lexes outer text) :=
  inferInstanceAs (Decidable (Place.scan outer (.code []) text.toList = some (.code [])))

/-- Any character may stand outside all brackets. -/
def anywhere : Char → Bool := fun _ => true

/-- A text that can be put anywhere in code: whatever brackets are open before it are open behind
it. Outside its own brackets it only has characters of names, dots and line breaks. -/
def SelfContained (text : String) : Prop :=
  ∀ brackets, Passes isOuter (.code brackets) text (.code brackets)

/-! ## Characters -/

/-- A class of characters without brackets and quotes is plain. -/
theorem isPlain_of_class {p : Char → Bool} (hp : marks.any p = false) {c : Char}
    (hc : p c = true) : isPlain c = true := by
  simp only [isPlain, Bool.not_eq_true', List.contains_eq_mem, decide_eq_false_iff_not]
  intro hmem
  exact List.any_eq_false.1 hp c hmem hc

theorem isPlain_of_isOuter {c : Char} (h : isOuter c = true) : isPlain c = true :=
  isPlain_of_class (by decide) h

/-- The characters of an identifier may stand outside all brackets, the line break at its end
included. -/
theorem isOuter_of_isIdentifier {name : String} (h : isIdentifier name = true) :
    ∀ c ∈ name.toList, isOuter c = true := by
  apply isIdentifier_all
  · intro c hc
    simp [isOuter, hc]
  · rfl
  · exact h

/-! ## Single steps -/

namespace Place

variable {outer : Char → Bool} {brackets : List Bracket} {b : Bracket} {c : Char}

theorem opened?_of_closed? (h : Bracket.closed? c = some b) : Bracket.opened? c = none := by
  unfold Bracket.closed? at h
  split at h
  · rename_i hc; subst hc; rfl
  · split at h
    · rename_i hc; subst hc; rfl
    · split at h
      · rename_i hc; subst hc; rfl
      · cases h

theorem unbracketed_of_isPlain (hc : isPlain c = true) :
    Bracket.opened? c = none ∧ Bracket.closed? c = none ∧ c ≠ '"' := by
  have hmarks : c ∉ marks := by simpa [isPlain] using hc
  simp only [marks, List.mem_cons, List.not_mem_nil, or_false, not_or] at hmarks
  simp [Bracket.opened?, Bracket.closed?, hmarks]

theorem step_open (h : Bracket.opened? c = some b) :
    step outer (code brackets) c = some (code (b :: brackets)) := by
  simp [step, h]

theorem step_close (h : Bracket.closed? c = some b) :
    step outer (code (b :: brackets)) c = some (code brackets) := by
  simp [step, h, opened?_of_closed? h]

theorem step_quote (ho : brackets ≠ [] ∨ outer '"' = true) :
    step outer (code brackets) '"' = some (string brackets false) := by
  have hinside : (brackets.isEmpty && !outer '"') = false := by
    rcases ho with ho | ho <;> simp [ho]
  simp [step, Bracket.opened?, Bracket.closed?, hinside]

theorem step_plain (hc : isPlain c = true) (ho : brackets ≠ [] ∨ outer c = true) :
    step outer (code brackets) c = some (code brackets) := by
  obtain ⟨hopen, hclose, hquote⟩ := unbracketed_of_isPlain hc
  have hinside : (brackets.isEmpty && !outer c) = false := by
    rcases ho with ho | ho <;> simp [ho]
  simp [step, hopen, hclose, hinside, hquote, hc]

/-- All that a step in code can do: open a bracket, close the innermost one, begin a string, or stay
in code. -/
theorem step_code {q : Place} (h : step outer (code brackets) c = some q) :
    (∃ b, Bracket.opened? c = some b ∧ q = code (b :: brackets)) ∨
      (∃ b rest, Bracket.closed? c = some b ∧ brackets = b :: rest ∧ q = code rest) ∨
      ((brackets ≠ [] ∨ outer c = true) ∧
        (c = '"' ∧ q = string brackets false ∨ isPlain c = true ∧ q = code brackets)) := by
  simp only [step] at h
  cases hopen : Bracket.opened? c with
  | some b =>
    simp only [hopen, Option.some.injEq] at h
    exact .inl ⟨b, rfl, h.symm⟩
  | none =>
    cases hclose : Bracket.closed? c with
    | some b =>
      simp only [hopen, hclose, Option.ite_none_right_eq_some, Option.some.injEq] at h
      obtain ⟨hb, rfl⟩ := h
      obtain ⟨rest, rfl⟩ := List.head?_eq_some_iff.1 hb
      exact .inr (.inl ⟨b, rest, rfl, rfl, rfl⟩)
    | none =>
      simp only [hopen, hclose, Option.ite_none_left_eq_some] at h
      obtain ⟨hinside, h⟩ := h
      refine .inr (.inr ⟨Decidable.not_or_of_imp (by simpa using hinside), ?_⟩)
      split at h
      · rename_i hquote
        exact .inl ⟨hquote, (Option.some.inj h).symm⟩
      · split at h
        · rename_i hplain
          exact .inr ⟨hplain, (Option.some.inj h).symm⟩
        · cases h

/-- More brackets around a place change nothing, and neither does letting more characters stand
outside all brackets. -/
theorem step_within {outer' : Char → Bool} {around : List Bracket} {p q : Place}
    (ho : outer c = true → around ≠ [] ∨ outer' c = true) (h : step outer p c = some q) :
    step outer' (p.within around) c = some (q.within around) := by
  cases p with
  | string brackets escaped =>
    -- In a string the brackets are not looked at.
    simp only [step] at h
    simp only [within, step]
    grind
  | code brackets =>
    rcases step_code h with ⟨b, hb, rfl⟩ | ⟨b, rest, hb, rfl, rfl⟩ | ⟨hout, hc⟩
    · exact step_open hb
    · exact step_close hb
    · have hout' : brackets ++ around ≠ [] ∨ outer' c = true := by
        rcases hout with hout | hout
        · exact .inl (by simp [hout])
        · exact (ho hout).imp_left (by simp +contextual)
      rcases hc with ⟨rfl, rfl⟩ | ⟨hplain, rfl⟩
      · exact step_quote hout'
      · exact step_plain hplain hout'

/-- An indented line break is passed like a line break, where blanks may stand. -/
theorem step_newline {p q : Place} (hblank : outer ' ' = true) (h : step outer p '\n' = some q) :
    scan outer p ['\n', ' ', ' '] = some q := by
  cases p with
  | string brackets escaped => cases h
  | code brackets =>
    have hspace : step outer (code brackets) ' ' = some (code brackets) :=
      step_plain (by decide) (.inr hblank)
    obtain ⟨b, hb, -⟩ | ⟨b, rest, hb, -⟩ | ⟨-, ⟨hquote, -⟩ | ⟨-, rfl⟩⟩ := step_code h
    · cases hb
    · cases hb
    · exact absurd hquote (by decide)
    · simp [scan, h, hspace]

/-! ## Several steps -/

theorem scan_cons {p q : Place} {cs : List Char} :
    scan outer p (c :: cs) = some q ↔ ∃ r, step outer p c = some r ∧ scan outer r cs = some q := by
  simp only [scan, List.foldlM_cons]
  exact Option.bind_eq_some_iff

theorem scan_append {p q r : Place} {cs ds : List Char} (hc : scan outer p cs = some q) :
    scan outer p (cs ++ ds) = some r ↔ scan outer q ds = some r := by
  have hboth : scan outer p (cs ++ ds) = (scan outer p cs).bind fun q => scan outer q ds :=
    List.foldlM_append
  rw [hboth, hc, Option.bind_some]

theorem scan_within {outer' : Char → Bool} {around : List Bracket} {cs : List Char} {p q : Place}
    (ho : ∀ c, outer c = true → around ≠ [] ∨ outer' c = true) (h : scan outer p cs = some q) :
    scan outer' (p.within around) cs = some (q.within around) := by
  induction cs generalizing p with
  | nil => cases h; rfl
  | cons c cs ih =>
    obtain ⟨r, hr, h⟩ := scan_cons.1 h
    exact scan_cons.2 ⟨r.within around, step_within (ho c) hr, ih h⟩

theorem scan_plain {cs : List Char} (hp : ∀ c ∈ cs, isPlain c = true)
    (ho : ∀ c ∈ cs, brackets ≠ [] ∨ outer c = true) :
    scan outer (code brackets) cs = some (code brackets) := by
  induction cs with
  | nil => rfl
  | cons c cs ih =>
    rw [List.forall_mem_cons] at hp ho
    exact scan_cons.2 ⟨_, step_plain hp.1 ho.1, ih hp.2 ho.2⟩

/-- Strings hold no line breaks, so that indenting a text leaves its strings alone. -/
theorem scan_indent {cs : List Char} {p q : Place} (hblank : outer ' ' = true)
    (h : scan outer p cs = some q) :
    scan outer p (cs.flatMap fun c => if c = '\n' then ['\n', ' ', ' '] else [c]) = some q := by
  induction cs generalizing p with
  | nil => exact h
  | cons c cs ih =>
    obtain ⟨r, hr, h⟩ := scan_cons.1 h
    rw [List.flatMap_cons]
    refine (scan_append ?_).2 (ih h)
    split
    · rename_i hc
      subst hc
      exact step_newline hblank hr
    · exact scan_cons.2 ⟨r, hr, rfl⟩

/-! ## Strings -/

/-- Printable ASCII without the quote and the backslash stands for itself. -/
theorem step_string (hlow : 0x20 ≤ c.toNat) (hhigh : c.toNat ≤ 0x7E) (hquote : c ≠ '"')
    (hescape : c ≠ '\\') :
    step outer (string brackets false) c = some (string brackets false) := by
  have hrange : ¬(c.toNat < 0x20 ∨ 0x7E < c.toNat) := by omega
  simp only [step]
  rw [if_neg hrange, if_neg Bool.false_ne_true, if_neg hquote, beq_false_of_ne hescape]

theorem step_hexDigit (n : Nat) :
    step outer (string brackets false) (hexDigit n) = some (string brackets false) := by
  have hdigits : ∀ i < 16, 0x20 ≤ (Nat.digitChar i).toNat ∧ (Nat.digitChar i).toNat ≤ 0x7E ∧
      Nat.digitChar i ≠ '"' ∧ Nat.digitChar i ≠ '\\' := by decide
  obtain ⟨hlow, hhigh, hquote, hescape⟩ := hdigits (n % 16) (Nat.mod_lt n (by omega))
  exact step_string hlow hhigh hquote hescape

theorem scan_unitEscape (unit : Nat) :
    scan outer (string brackets false) (unitEscape unit) = some (string brackets false) := by
  refine scan_cons.2 ⟨string brackets true, rfl, scan_cons.2 ⟨string brackets false, rfl, ?_⟩⟩
  simp [scan, step_hexDigit]

theorem scan_escapeChar (c : Char) :
    scan outer (string brackets false) (escapeChar c) = some (string brackets false) := by
  have hshort : ∀ pair ∈ shortEscapes,
      scan outer (string brackets false) ['\\', pair.2] = some (string brackets false) := by
    simp only [shortEscapes, List.forall_mem_cons]
    exact ⟨rfl, rfl, rfl, rfl, rfl, rfl, rfl, nofun⟩
  unfold escapeChar
  split
  · rename_i e he
    exact hshort (c, e) (mem_shortEscapes he)
  · rename_i hnone
    obtain ⟨hquote, hescape⟩ := ne_of_not_short hnone
    split
    · rename_i hrange
      exact scan_cons.2 ⟨_, step_string hrange.1 hrange.2 hquote hescape, rfl⟩
    · unfold unicodeEscape
      split
      · exact scan_unitEscape _
      · exact (scan_append (scan_unitEscape _)).2 (scan_unitEscape _)

theorem scan_escapePoint (n : CodePoint) :
    scan outer (string brackets false) (escapePoint n) = some (string brackets false) := by
  unfold escapePoint
  split
  · exact scan_escapeChar _
  · exact scan_unitEscape _

theorem scan_escapePoints (ps : List CodePoint) :
    scan outer (string brackets false) (escapePoints ps) = some (string brackets false) := by
  induction ps with
  | nil => rfl
  | cons n ps ih => exact (scan_append (scan_escapePoint n)).2 ih

end Place

/-! ## Texts -/

section Passing
variable {outer : Char → Bool} {brackets : List Bracket}

theorem passes_append {p q r : Place} {s t : String} (hs : Passes outer p s q) :
    Passes outer p (s ++ t) r ↔ Passes outer q t r := by
  unfold Passes
  rw [String.toList_append]
  exact Place.scan_append hs

theorem Passes.append {p q r : Place} {s t : String} (hs : Passes outer p s q)
    (ht : Passes outer q t r) : Passes outer p (s ++ t) r := (passes_append hs).2 ht

/-- What lexes on its own passes inside any brackets. -/
theorem Lexes.passes {outer' : Char → Bool} {text : String} (h : Lexes outer' text)
    (hb : brackets ≠ [] ∨ ∀ c, outer' c = true → outer c = true) :
    Passes outer (.code brackets) text (.code brackets) :=
  Place.scan_within (fun c hc => hb.imp_right fun hb => hb c hc) h

theorem Lexes.weaken {text : String} (h : Lexes outer text) : Lexes anywhere text :=
  h.passes (.inr fun _ _ => rfl)

theorem Lexes.inside {text : String} {b : Bracket} (h : Lexes anywhere text) :
    Passes outer (.code (b :: brackets)) text (.code (b :: brackets)) :=
  h.passes (.inl (by simp))

/-- Text between two texts that open and close one bracket. -/
theorem lexes_bracketed {b : Bracket} {before text after : String}
    (hb : Passes outer (.code []) before (.code [b]))
    (ha : Passes outer (.code [b]) after (.code [])) (h : Lexes anywhere text) :
    Lexes outer (before ++ text ++ after) := (hb.append h.inside).append ha

theorem Lexes.selfContained {text : String} (h : Lexes isOuter text) : SelfContained text :=
  fun _ => h.passes (.inr fun _ hc => hc)

/-- Self-contained text between two texts changes nothing about the way they are read. -/
theorem SelfContained.between {text before after : String} {p q : Place} (h : SelfContained text)
    (hb : Passes isOuter p before (.code brackets)) :
    Passes isOuter p (before ++ text ++ after) q ↔ Passes isOuter p (before ++ after) q := by
  rw [passes_append (hb.append (h brackets)), passes_append hb]

theorem passes_nil (p : Place) : Passes outer p "" p := rfl

theorem Lexes.append {s t : String} (hs : Lexes outer s) (ht : Lexes outer t) :
    Lexes outer (s ++ t) := Passes.append hs ht

theorem lexes_plain {text : String} (hp : ∀ c ∈ text.toList, isPlain c = true) :
    Lexes anywhere text := Place.scan_plain hp fun _ _ => .inr rfl

theorem lexes_outer {text : String} (h : ∀ c ∈ text.toList, isOuter c = true) :
    Lexes isOuter text :=
  Place.scan_plain (fun c hc => isPlain_of_isOuter (h c hc)) fun c hc => .inr (h c hc)

theorem lexes_quotedPoints (ps : List CodePoint) (ho : outer '"' = true) :
    Lexes outer (quotedPoints ps) := by
  unfold Lexes Passes quotedPoints
  rw [String.toList_ofList, List.cons_append]
  refine Place.scan_cons.2 ⟨.string [] false, Place.step_quote (.inr ho), ?_⟩
  exact (Place.scan_append (Place.scan_escapePoints ps)).2 rfl

theorem lexes_quoted (s : String) (ho : outer '"' = true) : Lexes outer (quoted s) :=
  lexes_quotedPoints (points s) ho

theorem Passes.indent {p q : Place} {text : String} (hblank : outer ' ' = true)
    (h : Passes outer p text q) : Passes outer p (indent text) q := by
  unfold Passes Text.indent
  rw [String.toList_ofList]
  exact Place.scan_indent hblank h

theorem lexes_join {separator : String} {texts : List String}
    (hs : Lexes anywhere separator) (h : ∀ t ∈ texts, Lexes anywhere t) :
    Lexes anywhere (join separator texts) := by
  fun_induction join separator texts with
  | case1 => exact passes_nil _
  | case2 piece => exact h piece (by simp)
  | case3 piece next rest ih =>
    rw [List.forall_mem_cons] at h
    exact (h.1.append hs).append (ih h.2)

theorem lexes_concat {texts : List String} (h : ∀ t ∈ texts, Lexes anywhere t) :
    Lexes anywhere (concat texts) := by
  induction texts with
  | nil => exact passes_nil _
  | cons piece rest ih =>
    rw [List.forall_mem_cons] at h
    exact h.1.append (ih h.2)

end Passing

end Text

end Schemata
