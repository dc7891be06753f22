import Schemata.Proofs.Lexing
/-!
Cutting text at marks, and the expressions that the pieces make up.

Marks count outside all brackets and strings only. If the pieces of a text lex, and have no character
outside their brackets that a mark begins with, then the text is cut into just these pieces. Pieces
with `?` and `:` between them are a conditional expression, in which conditionals nest to the right: no
other reading of them fits the grammar.

Component: the text of code, as a reader of the generated language takes it apart. Main results:
- `cut_text` — cutting the text of pieces that lex gives the pieces back;
- `Derives.unique` — pieces make up one expression at most;
- `select_chain` — a chain selects the branch of the first test that is true.
-/

namespace Schemata

namespace Text

/-- A text that is cut: the piece before the first mark, and each mark with the piece behind it. -/
structure Cut where
  first : String
  rest : List (String × String) := []
deriving DecidableEq, Repr

namespace Cut

def pieces (cut : Cut) : List String := cut.first :: cut.rest.map Prod.snd

def marks (cut : Cut) : List String := cut.rest.map Prod.fst

def text (cut : Cut) : String := cut.first ++ concat (cut.rest.map fun piece => piece.1 ++ piece.2)

/-- The cut of a text with another text before it. -/
def prepend (text : String) (cut : Cut) : Cut := { cut with first := text ++ cut.first }

/-- The cut of a text with a mark before it. -/
def behind (mark : String) (cut : Cut) : Cut := ⟨"", (mark, cut.first) :: cut.rest⟩

theorem prepend_empty : prepend "" = id := by
  funext cut
  simp [prepend]

theorem prepend_prepend (s t : String) (cut : Cut) :
    (cut.prepend t).prepend s = cut.prepend (s ++ t) := by
  simp [prepend, String.append_assoc]

end Cut

/-- The mark that a text begins with. -/
def markAt? (marks : List String) (cs : List Char) : Option String :=
  marks.find? fun mark => mark.toList.isPrefixOf cs

/-- Cuts a text at marks. The characters of a mark that was found are skipped. Text that ends inside
a bracket or a string has no cut. -/
def cutChars (marks : List String) : Place → Nat → List Char → Option Cut
  | place, _, [] => if place = .code [] then some ⟨"", []⟩ else none
  | place, skip + 1, _ :: cs => cutChars marks place skip cs
  | place, 0, c :: cs =>
    match if place = .code [] then markAt? marks (c :: cs) else none with
    | some mark => (cutChars marks place (mark.toList.length - 1) cs).map (Cut.behind mark)
    | none => (place.step anywhere c).bind fun next =>
      (cutChars marks next 0 cs).map (Cut.prepend (String.ofList [c]))

/-- Cuts a text at the marks that stand outside all brackets and strings. -/
def cut (marks : List String) (text : String) : Option Cut := cutChars marks (.code []) 0 text.toList

/-- Marks that can be told from each other and from the characters that may stand outside brackets:
they begin with a character that may not, and none begins with another one. -/
structure Separates (outer : Char → Bool) (marks : List String) : Prop where
  starts : ∀ mark ∈ marks, (mark.toList.head?.any fun c => isPlain c && !outer c) = true
  apart : ∀ mark ∈ marks, ∀ other ∈ marks, other.toList <+: mark.toList → other = mark

/-! ## Pieces and marks -/

section Cutting
variable {outer : Char → Bool} {marks : List String}

namespace Separates

variable (h : Separates outer marks)
include h

theorem exists_cons {mark : String} (hmark : mark ∈ marks) :
    ∃ c rest, mark.toList = c :: rest ∧ isPlain c = true ∧ outer c = false := by
  have hstart := h.starts mark hmark
  cases hchars : mark.toList with
  | nil => simp [hchars] at hstart
  | cons c rest =>
    simp only [hchars, List.head?_cons, Option.any_some, Bool.and_eq_true,
      Bool.not_eq_true'] at hstart
    exact ⟨c, rest, rfl, hstart⟩

/-- No mark begins with a character that a reader may pass over outside all brackets. -/
theorem markAt?_eq_none {c : Char} {cs : List Char} {q : Place}
    (hc : Place.step outer (.code []) c = some q) : markAt? marks (c :: cs) = none := by
  rw [markAt?, List.find?_eq_none]
  intro mark hmark hprefix
  obtain ⟨d, rest, hchars, hplain, houter⟩ := h.exists_cons hmark
  rw [hchars, List.isPrefixOf_iff_prefix, List.cons_prefix_cons] at hprefix
  obtain ⟨rfl, -⟩ := hprefix
  obtain ⟨hopen, hclose, -⟩ := Place.unbracketed_of_isPlain hplain
  rcases Place.step_code hc with ⟨b, hb, -⟩ | ⟨b, rest, hb, -⟩ | ⟨hout | hout, -⟩
  · exact absurd hb (by simp [hopen])
  · exact absurd hb (by simp [hclose])
  · exact hout rfl
  · exact absurd hout (by simp [houter])

/-- A text that begins with a mark begins with no other. -/
theorem markAt?_append {mark : String} (hmark : mark ∈ marks) (cs : List Char) :
    markAt? marks (mark.toList ++ cs) = some mark := by
  unfold markAt?
  cases hfound : marks.find? fun mark' => mark'.toList.isPrefixOf (mark.toList ++ cs) with
  | none => exact absurd (by simp) (List.find?_eq_none.1 hfound mark hmark)
  | some other =>
    have hother : other ∈ marks := List.mem_of_find?_eq_some hfound
    have hbegins := List.find?_some hfound
    have hprefix : other.toList <+: mark.toList ++ cs := List.isPrefixOf_iff_prefix.1 hbegins
    -- Of two beginnings of one text the shorter one begins the other.
    rcases List.prefix_or_prefix_of_prefix hprefix (List.prefix_append _ _) with hshorter | hshorter
    · rw [h.apart mark hmark other hother hshorter]
    · rw [h.apart other hother mark hmark hshorter]

end Separates

theorem Place.within_nil (p : Place) : p.within [] = p := by
  cases p <;> simp [within]

theorem Place.step_anywhere {p q : Place} {c : Char} (h : step outer p c = some q) :
    step anywhere p c = some q := by
  have hwithin : step anywhere (p.within []) c = some (q.within []) :=
    step_within (fun _ => .inr rfl) h
  rwa [within_nil, within_nil] at hwithin

theorem cutChars_skip (marks : List String) (p : Place) (cs ds : List Char) :
    cutChars marks p cs.length (cs ++ ds) = cutChars marks p 0 ds := by
  induction cs with
  | nil => rfl
  | cons c cs ih => exact ih

/-- A piece is passed over as a whole. -/
theorem cutChars_piece (h : Separates outer marks) {p q : Place} {cs ds : List Char}
    (hcs : Place.scan outer p cs = some q) :
    cutChars marks p 0 (cs ++ ds) =
      (cutChars marks q 0 ds).map (Cut.prepend (String.ofList cs)) := by
  induction cs generalizing p with
  | nil =>
    cases hcs
    rw [List.nil_append, String.ofList_nil, Cut.prepend_empty, Option.map_id, id]
  | cons c cs ih =>
    obtain ⟨r, hr, hcs⟩ := Place.scan_cons.1 hcs
    have hnone : (if p = .code [] then markAt? marks (c :: (cs ++ ds)) else none) = none := by
      split
      · rename_i hp
        rw [hp] at hr
        exact h.markAt?_eq_none hr
      · rfl
    have hprepend : Cut.prepend (String.ofList [c]) ∘ Cut.prepend (String.ofList cs) =
        Cut.prepend (String.ofList (c :: cs)) := by
      funext cut
      rw [Function.comp_apply, Cut.prepend_prepend, ← String.ofList_append]
      rfl
    rw [List.cons_append, cutChars, hnone]
    simp only
    rw [Place.step_anywhere hr, Option.bind_some, ih hcs, Option.map_map, hprepend]

/-- A mark outside all brackets is cut off. -/
theorem cutChars_mark (h : Separates outer marks) {mark : String} (hmark : mark ∈ marks)
    (ds : List Char) :
    cutChars marks (.code []) 0 (mark.toList ++ ds) =
      (cutChars marks (.code []) 0 ds).map (Cut.behind mark) := by
  have hfound := h.markAt?_append hmark ds
  obtain ⟨c, rest, hchars, -⟩ := h.exists_cons hmark
  rw [hchars, List.cons_append] at hfound ⊢
  rw [cutChars, if_pos rfl, hfound]
  simp only [hchars, List.length_cons, Nat.add_sub_cancel]
  rw [cutChars_skip]

/-- Cutting the text of a cut gives the cut back, if the pieces lex. -/
theorem cut_text (h : Separates outer marks) {first : String} {rest : List (String × String)}
    (hfirst : Lexes outer first) (hrest : ∀ piece ∈ rest, piece.1 ∈ marks ∧ Lexes outer piece.2) :
    cut marks (Cut.text ⟨first, rest⟩) = some ⟨first, rest⟩ := by
  induction rest generalizing first with
  | nil =>
    have htext : (Cut.text ⟨first, []⟩).toList = first.toList ++ [] := by simp [Cut.text, concat]
    rw [cut, htext, cutChars_piece h hfirst, String.ofList_toList]
    simp [cutChars, Cut.prepend]
  | cons piece rest ih =>
    rw [List.forall_mem_cons] at hrest
    obtain ⟨⟨hmark, hpiece⟩, hrest⟩ := hrest
    have htext : (Cut.text ⟨first, piece :: rest⟩).toList =
        first.toList ++ (piece.1.toList ++ (Cut.text ⟨piece.2, rest⟩).toList) := by
      simp [Cut.text, concat]
    rw [cut, htext, cutChars_piece h hfirst, cutChars_mark h hmark, ← cut, ih hpiece hrest,
      String.ofList_toList]
    simp [Cut.behind, Cut.prepend]

end Cutting

example : cut [" ? ", " : "] "f(a ? b) ? \" : \" : c" =
    some ⟨"f(a ? b)", [(" ? ", "\" : \""), (" : ", "c")]⟩ := by decide

end Text

/-! ## Choosing -/

/-- What the first true test selects: one option per test, and one more in case that none is true. -/
def pick {α : Type} (truth : Nat → Bool) : List α → α → α
  | [], otherwise => otherwise
  | option :: options, otherwise =>
    if truth 0 then option else pick (fun i => truth (i + 1)) options otherwise

theorem pick_first {α : Type} {truth : Nat → Bool} {options : List α} {otherwise option : α} {i : Nat}
    (hoption : options[i]? = some option) (htrue : truth i = true)
    (hfalse : ∀ j < i, truth j = false) : pick truth options otherwise = option := by
  induction options generalizing truth i with
  | nil => simp at hoption
  | cons first options ih =>
    cases i with
    | zero =>
      rw [pick, if_pos htrue]
      exact Option.some.inj hoption
    | succ i =>
      rw [pick, if_neg (by simp [hfalse 0 (Nat.succ_pos i)])]
      exact ih hoption htrue fun j hj => hfalse (j + 1) (Nat.succ_lt_succ hj)

theorem pick_none {α : Type} {truth : Nat → Bool} {options : List α} {otherwise : α}
    (hfalse : ∀ j < options.length, truth j = false) :
    pick truth options otherwise = otherwise := by
  induction options generalizing truth with
  | nil => rfl
  | cons first options ih =>
    rw [pick, if_neg (by simp [hfalse 0 (Nat.succ_pos _)])]
    exact ih fun j hj => hfalse (j + 1) (Nat.succ_lt_succ hj)

theorem pick_mem {α : Type} (truth : Nat → Bool) (options : List α) (otherwise : α) :
    pick truth options otherwise ∈ options ++ [otherwise] := by
  induction options generalizing truth with
  | nil => exact List.mem_singleton_self otherwise
  | cons option options ih =>
    rw [pick]
    split
    · exact List.mem_cons_self
    · exact List.mem_cons_of_mem _ (ih _)

/-- Every option is selected if the tests come out the right way. -/
theorem exists_pick {α : Type} {options : List α} {otherwise option : α}
    (h : option ∈ options ++ [otherwise]) : ∃ truth, pick truth options otherwise = option := by
  rcases List.mem_append.1 h with h | h
  · obtain ⟨i, hi⟩ := List.mem_iff_getElem?.1 h
    refine ⟨fun j => j == i, pick_first hi (by simp) fun j hj => ?_⟩
    simpa using Nat.ne_of_lt hj
  · rw [List.mem_singleton.1 h]
    exact ⟨fun _ => false, pick_none fun _ _ => rfl⟩

/-- Options that correspond to each other are selected together. -/
theorem pick_rel {α β : Type} {R : α → β → Prop} {as : List α} {bs : List β} {a : α} {b : β}
    (h : List.Forall₂ R as bs) (hotherwise : R a b) (truth : Nat → Bool) :
    R (pick truth as a) (pick truth bs b) := by
  induction h generalizing truth with
  | nil => exact hotherwise
  | cons hone _ ih =>
    rw [pick, pick]
    split
    · exact hone
    · exact ih _

/-! ## Conditional expressions -/

/-- An expression whose operands are not looked into. -/
inductive Expression where
  | operand (text : String)
  | conditional (test : String) (yes no : Expression)
deriving DecidableEq, Repr

namespace Expression

open Text (Cut)

/-- The pieces of a text make up an expression. The test of a conditional is an operand, and both
branches are expressions again. -/
inductive Derives : Expression → Cut → Prop where
  | operand (text : String) : Derives (.operand text) ⟨text, []⟩
  | conditional {test : String} {yes no : Expression} {a b : Cut} (hyes : Derives yes a)
    (hno : Derives no b) :
    Derives (.conditional test yes no)
      ⟨test, (" ? ", a.first) :: a.rest ++ (" : ", b.first) :: b.rest⟩

def size : Expression → Nat
  | operand _ => 0
  | conditional _ yes no => yes.size + no.size + 1

/-- The operand that is selected, for given outcomes of the tests in the order in which they stand in
the text. -/
def select : Expression → (Nat → Bool) → String
  | operand text, _ => text
  | conditional _ yes no, truth =>
    if truth 0 then yes.select fun i => truth (i + 1)
    else no.select fun i => truth (i + yes.size + 1)

/-- Two expressions at the start of one sequence of pieces are the same, unless one of them is the
test of a conditional. -/
theorem Derives.eq_of_append {e e' : Expression} {a a' : Cut} {s s' : List (String × String)}
    (h : Derives e a) (h' : Derives e' a') (hfirst : a.first = a'.first)
    (hrest : a.rest ++ s = a'.rest ++ s') (hs : s.head?.map Prod.fst ≠ some " ? ")
    (hs' : s'.head?.map Prod.fst ≠ some " ? ") : e = e' ∧ s = s' := by
  induction h generalizing e' a' s s' with
  | operand text =>
    cases h' with
    | operand text' => exact ⟨congrArg Expression.operand hfirst, hrest⟩
    | conditional hyes hno =>
      rw [List.nil_append] at hrest
      exact absurd (by rw [hrest]; rfl) hs
  | @conditional test yes no a b hyes hno ihyes ihno =>
    cases h' with
    | operand text' =>
      rw [List.nil_append] at hrest
      exact absurd (by rw [← hrest]; rfl) hs'
    | @conditional test' yes' no' a' b' hyes' hno' =>
      simp only [List.cons_append, List.append_assoc, List.cons.injEq, Prod.mk.injEq,
        true_and] at hrest
      obtain ⟨hstart, hrest⟩ := hrest
      -- What follows the first branch begins with a colon, on both sides.
      obtain ⟨rfl, hrest⟩ := ihyes hyes' hstart hrest (by simp) (by simp)
      simp only [List.cons.injEq, Prod.mk.injEq, true_and] at hrest
      obtain ⟨rfl, htail⟩ := ihno hno' hrest.1 hrest.2 hs hs'
      exact ⟨congrArg (Expression.conditional · yes no) hfirst, htail⟩

/-- Pieces make up one expression at most. -/
theorem Derives.unique {e e' : Expression} {cut : Cut} (h : Derives e cut) (h' : Derives e' cut) :
    e = e' := by
  have hnone : ([] : List (String × String)).head?.map Prod.fst ≠ some " ? " := by simp
  exact (h.eq_of_append h' rfl rfl hnone hnone).1

/-! ## Chains of conditionals -/

/-- Conditionals that are tried one after the other. -/
def chain : List (String × String) → String → Expression
  | [], otherwise => .operand otherwise
  | (test, branch) :: rest, otherwise =>
    .conditional test (.operand branch) (chain rest otherwise)

/-- The pieces of a chain. -/
def chainCut : List (String × String) → String → Cut
  | [], otherwise => ⟨otherwise, []⟩
  | (test, branch) :: rest, otherwise =>
    let cut := chainCut rest otherwise
    ⟨test, (" ? ", branch) :: (" : ", cut.first) :: cut.rest⟩

theorem derives_chain (cases : List (String × String)) (otherwise : String) :
    Derives (chain cases otherwise) (chainCut cases otherwise) := by
  induction cases with
  | nil => exact .operand otherwise
  | cons case rest ih => exact .conditional (.operand case.2) ih

/-- A chain selects the branch of the first test that is true. -/
theorem select_chain (truth : Nat → Bool) (cases : List (String × String)) (otherwise : String) :
    (chain cases otherwise).select truth = pick truth (cases.map Prod.snd) otherwise := by
  induction cases generalizing truth with
  | nil => rfl
  | cons case rest ih =>
    rw [chain, select, select, size, List.map_cons, pick, ih]

theorem text_chainCut (cases : List (String × String)) (otherwise : String) :
    (chainCut cases otherwise).text = Text.choiceText cases otherwise := by
  induction cases with
  | nil => simp [chainCut, Cut.text, Text.choiceText, Text.concat]
  | cons case rest ih =>
    rw [Text.choiceText, ← ih]
    simp [chainCut, Cut.text, Text.concat, String.append_assoc]

theorem pieces_chainCut (cases : List (String × String)) (otherwise : String) :
    (chainCut cases otherwise).pieces =
      cases.flatMap (fun case => [case.1, case.2]) ++ [otherwise] := by
  induction cases with
  | nil => rfl
  | cons case rest ih =>
    rw [List.flatMap_cons, List.append_assoc, ← ih]
    rfl

theorem marks_chainCut (cases : List (String × String)) (otherwise : String) :
    (chainCut cases otherwise).marks = cases.flatMap fun _ => [" ? ", " : "] := by
  induction cases with
  | nil => rfl
  | cons case rest ih =>
    rw [List.flatMap_cons, ← ih]
    rfl

end Expression

end Schemata
