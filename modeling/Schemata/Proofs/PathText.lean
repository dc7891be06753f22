import Schemata.Path
import Schemata.Proofs.Identifiers
/-!
The text of a path says which path it is.

The text of a path from the root is one piece after the other: an index in brackets, an identifier
behind a dot, or a name in brackets and quotes. Every piece says by itself where it ends, whatever
piece comes next, so that no two paths from the root have the same text.

Component: the text of paths, `Path.render`. Main results:
- `piece_inj` — a piece and what follows it are told apart;
- `steps_eq_of_render` — paths from the root that have the same text have the same steps;
- `render_determines_steps` — the same behind any base.
-/

namespace Schemata

namespace Text

/-- An identifier has a first letter, and no character of it is a dot or a bracket. -/
theorem isIdentifier_chars {name : String} (h : isIdentifier name = true) :
    (∃ c rest, name.toList = c :: rest ∧ startsIdentifier c = true) ∧
      ∀ c ∈ name.toList, c ≠ '.' ∧ c ≠ '[' := by
  obtain ⟨c, rest, hname, hc, -⟩ := isIdentifier_starts h
  refine ⟨⟨c, rest, hname, hc⟩, isIdentifier_all (fun d hd => ?_) (by decide) h⟩
  constructor <;> rintro rfl <;> exact absurd hd (by decide)

end Text

namespace Decimal

theorem isDigit_of_mem_digits {n : Nat} {c : Char} (h : c ∈ digits n) : c.isDigit = true :=
  Nat.isDigit_of_mem_toDigits (by decide) (by decide) h

theorem digits_inj {m n : Nat} (h : digits m = digits n) : m = n := by
  have hvalue := congrArg (fun ds => Nat.ofDigitChars 10 ds 0) h
  simpa [digits, Nat.ofDigitChars_ten_toDigits] using hvalue

/-- A sign or a digit comes first in an integer, and no bracket is part of it. -/
theorem intDigits_chars (n : Int) :
    (∃ c rest, intDigits n = c :: rest ∧ c ≠ '"') ∧ ']' ∉ intDigits n := by
  have hdigits : ∀ c ∈ digits n.natAbs, c ≠ '"' ∧ c ≠ ']' := by
    intro c hc
    have hdigit := isDigit_of_mem_digits hc
    constructor <;> rintro rfl <;> exact absurd hdigit (by decide)
  unfold intDigits
  split
  · refine ⟨⟨'-', _, rfl, by decide⟩, fun h => ?_⟩
    rcases List.mem_cons.1 h with h | h
    · cases h
    · exact (hdigits _ h).2 rfl
  · refine ⟨?_, fun h => (hdigits _ h).2 rfl⟩
    obtain ⟨c, rest, hc⟩ := List.exists_cons_of_ne_nil (Nat.toDigits_ne_nil (n := n.natAbs) (b := 10))
    exact ⟨c, rest, hc, (hdigits c (by rw [digits, hc]; exact List.mem_cons_self)).1⟩

theorem intDigits_inj {m n : Int} (h : intDigits m = intDigits n) : m = n := by
  -- No digit is a sign, so that the two numbers are on the same side of zero.
  have hminus : ∀ k : Nat, ∀ rest, digits k ≠ '-' :: rest := by
    intro k rest hk
    have hdigit := isDigit_of_mem_digits (n := k) (c := '-') (by rw [hk]; exact List.mem_cons_self)
    exact absurd hdigit (by decide)
  unfold intDigits at h
  split at h <;> split at h
  · have habs := digits_inj (List.cons.inj h).2
    omega
  · exact absurd h.symm (hminus _ _)
  · exact absurd h (hminus _ _)
  · have habs := digits_inj h
    omega

end Decimal

namespace Path

/-- The characters that a step adds to the text of a path. At the start no dot is needed. -/
def piece (first : Bool) : Step → List Char
  | .index i => '[' :: (Decimal.intDigits i ++ [']'])
  | .key name =>
    if Text.isIdentifier name then (if first then name.toList else '.' :: name.toList)
    else '[' :: '"' :: ((escapeName name).toList ++ ['"', ']'])

theorem extend_toList (text : String) (step : Step) :
    (extend text step).toList = text.toList ++ piece (text = "") step := by
  cases step with
  | index i => simp [extend, piece]
  | key name =>
    by_cases hid : Text.isIdentifier name = true
    · by_cases htext : text = "" <;> simp [extend, piece, hid, htext]
    · simp [extend, piece, hid]

theorem piece_ne_nil (first : Bool) (step : Step) : piece first step ≠ [] := by
  cases step with
  | index i => simp [piece]
  | key name =>
    by_cases hid : Text.isIdentifier name = true
    · obtain ⟨⟨c, rest, hname, -⟩, -⟩ := Text.isIdentifier_chars hid
      cases first <;> simp [piece, hid, hname]
    · simp [piece, hid]

/-- The characters of the pieces behind the first one. -/
def pieces (steps : List Step) : List Char := steps.flatMap (piece false)

theorem foldl_extend_toList (steps : List Step) (text : String) (h : text ≠ "") :
    (steps.foldl extend text).toList = text.toList ++ pieces steps := by
  induction steps generalizing text with
  | nil => simp [pieces]
  | cons step rest ih =>
    have hlonger : extend text step ≠ "" := by
      intro he
      have hchars := extend_toList text step
      rw [he] at hchars
      exact piece_ne_nil _ _ (List.append_eq_nil_iff.1 hchars.symm).2
    rw [List.foldl_cons, ih _ hlonger, extend_toList]
    simp [pieces, h]

theorem render_root_toList (step : Step) (rest : List Step) :
    (render ⟨"", step :: rest⟩).toList = piece true step ++ pieces rest := by
  have hfirst : (extend "" step).toList = piece true step := by simp [extend_toList]
  have hne : extend "" step ≠ "" := by
    intro he
    rw [he] at hfirst
    exact piece_ne_nil _ _ hfirst.symm
  rw [render, List.foldl_cons, foldl_extend_toList _ _ hne, hfirst]

/-! ## Where a piece ends -/

/-- What follows a piece: nothing, or a piece that starts with a dot or a bracket. -/
def Follows (cs : List Char) : Prop := ∀ c rest, cs = c :: rest → c = '.' ∨ c = '['

theorem piece_false_head {step : Step} {c : Char} {rest : List Char}
    (h : piece false step = c :: rest) : c = '.' ∨ c = '[' := by
  cases step with
  | index i => simp only [piece, List.cons.injEq] at h; exact .inr h.1.symm
  | key name =>
    by_cases hid : Text.isIdentifier name = true
    · simp only [piece, hid, if_true, Bool.false_eq_true, if_false, List.cons.injEq] at h
      exact .inl h.1.symm
    · simp only [piece, hid, Bool.false_eq_true, if_false, List.cons.injEq] at h
      exact .inr h.1.symm

theorem pieces_follows (steps : List Step) : Follows (pieces steps) := by
  cases steps with
  | nil => rintro c rest ⟨⟩
  | cons step steps =>
    intro c rest h
    obtain ⟨d, more, hd⟩ := List.exists_cons_of_ne_nil (piece_ne_nil false step)
    simp only [pieces, List.flatMap_cons, hd, List.cons_append, List.cons.injEq] at h
    exact h.1 ▸ piece_false_head hd

/-- Two texts up to a character that neither of them holds are equal. -/
theorem append_cons_inj {a b t t' : List Char} {c : Char} (ha : c ∉ a) (hb : c ∉ b)
    (h : a ++ c :: t = b ++ c :: t') : a = b ∧ t = t' := by
  induction a generalizing b with
  | nil =>
    cases b with
    | nil => exact ⟨rfl, (List.cons.inj h).2⟩
    | cons d b => exact absurd (List.cons.inj h).1 (fun hd => hb (hd ▸ List.mem_cons_self))
  | cons d a ih =>
    cases b with
    | nil => exact absurd (List.cons.inj h).1.symm (fun hd => ha (hd ▸ List.mem_cons_self))
    | cons e b =>
      obtain ⟨rfl, hrest⟩ := List.cons.inj h
      obtain ⟨rfl, ht⟩ := ih (fun hc => ha (List.mem_cons_of_mem _ hc))
        (fun hc => hb (List.mem_cons_of_mem _ hc)) hrest
      exact ⟨rfl, ht⟩

/-- Two names without dots and brackets end where the next piece begins. -/
theorem append_follows_inj {a b t t' : List Char} (ha : ∀ c ∈ a, c ≠ '.' ∧ c ≠ '[')
    (hb : ∀ c ∈ b, c ≠ '.' ∧ c ≠ '[') (ht : Follows t) (ht' : Follows t')
    (h : a ++ t = b ++ t') : a = b ∧ t = t' := by
  induction a generalizing b with
  | nil =>
    cases b with
    | nil => exact ⟨rfl, h⟩
    | cons d b =>
      have hd := hb d List.mem_cons_self
      exact absurd (ht d (b ++ t') h) (by simp [hd.1, hd.2])
  | cons d a ih =>
    cases b with
    | nil =>
      have hd := ha d List.mem_cons_self
      exact absurd (ht' d (a ++ t) h.symm) (by simp [hd.1, hd.2])
    | cons e b =>
      obtain ⟨rfl, hrest⟩ := List.cons.inj h
      obtain ⟨rfl, ht⟩ := ih (fun c hc => ha c (List.mem_cons_of_mem _ hc))
        (fun c hc => hb c (List.mem_cons_of_mem _ hc)) hrest
      exact ⟨rfl, ht⟩

/-- How one character of a name stands between quotes. -/
def escapeNameChar (c : Char) : List Char := if c = '\\' ∨ c = '"' then ['\\', c] else [c]

theorem escapeName_toList (name : String) :
    (escapeName name).toList = name.toList.flatMap escapeNameChar := by
  simp only [escapeName, String.toList_ofList]
  rfl

/-- Two names between quotes end at the first quote that is not escaped. -/
theorem escaped_inj {a b t t' : List Char}
    (h : a.flatMap escapeNameChar ++ '"' :: t = b.flatMap escapeNameChar ++ '"' :: t') :
    a = b ∧ t = t' := by
  -- An escaped character starts with a backslash or is no quote, so it is told from the end.
  have hhead : ∀ c : Char, ∃ d rest, escapeNameChar c = d :: rest ∧ d ≠ '"' := by
    intro c
    by_cases hc : c = '\\' ∨ c = '"'
    · exact ⟨'\\', [c], by simp [escapeNameChar, hc], by decide⟩
    · exact ⟨c, [], by simp [escapeNameChar, hc], fun hq => hc (.inr hq)⟩
  induction a generalizing b with
  | nil =>
    cases b with
    | nil => exact ⟨rfl, (List.cons.inj h).2⟩
    | cons d b =>
      obtain ⟨e, rest, he, hne⟩ := hhead d
      simp only [List.flatMap_nil, List.nil_append, List.flatMap_cons, he, List.cons_append,
        List.cons.injEq] at h
      exact absurd h.1.symm hne
  | cons c a ih =>
    cases b with
    | nil =>
      obtain ⟨e, rest, he, hne⟩ := hhead c
      simp only [List.flatMap_nil, List.nil_append, List.flatMap_cons, he, List.cons_append,
        List.cons.injEq] at h
      exact absurd h.1 hne
    | cons d b =>
      obtain ⟨rfl, hrest⟩ : c = d ∧ a.flatMap escapeNameChar ++ '"' :: t =
          b.flatMap escapeNameChar ++ '"' :: t' := by
        simp only [List.flatMap_cons, List.append_assoc, escapeNameChar] at h
        split at h <;> split at h
        · simpa [escapeNameChar] using h
        · rename_i hc hd
          simp only [List.cons_append, List.nil_append, List.cons.injEq] at h
          exact absurd (.inl h.1.symm) hd
        · rename_i hc hd
          simp only [List.cons_append, List.nil_append, List.cons.injEq] at h
          exact absurd (.inl h.1) hc
        · simpa [escapeNameChar] using h
      obtain ⟨rfl, ht⟩ := ih hrest
      exact ⟨rfl, ht⟩

/-! ## Reading pieces back -/

theorem identifier_piece_inj {first : Bool} {name : String} (hid : Text.isIdentifier name = true)
    {step : Step} {t t' : List Char} (ht : Follows t) (ht' : Follows t')
    (h : piece first (.key name) ++ t = piece first step ++ t') : .key name = step ∧ t = t' := by
  obtain ⟨⟨c, rest, hname, hc⟩, hchars⟩ := Text.isIdentifier_chars hid
  -- No piece of another kind starts like an identifier, with or without the dot.
  have hbracket : ∀ cs : List Char, piece first (.key name) ++ t ≠ '[' :: cs := by
    intro cs
    cases first with
    | false => simp [piece, hid]
    | true =>
      simp only [piece, hid, if_true, hname, List.cons_append, ne_eq, List.cons.injEq, not_and]
      rintro rfl
      exact absurd hc (by decide)
  cases step with
  | index i => exact absurd h (hbracket _)
  | key name' =>
    by_cases hid' : Text.isIdentifier name' = true
    · have hchars' := (Text.isIdentifier_chars hid').2
      obtain ⟨hnames, ht⟩ : name.toList = name'.toList ∧ t = t' := by
        refine append_follows_inj hchars hchars' ht ht' ?_
        cases first <;> simpa [piece, hid, hid'] using h
      exact ⟨by rw [String.toList_inj.1 hnames], ht⟩
    · simp only [piece, hid'] at h
      exact absurd h (hbracket _)

/-- A piece and what follows it are told apart. -/
theorem piece_inj {first : Bool} {s s' : Step} {t t' : List Char} (ht : Follows t)
    (ht' : Follows t') (h : piece first s ++ t = piece first s' ++ t') : s = s' ∧ t = t' := by
  cases s with
  | key name =>
    by_cases hid : Text.isIdentifier name = true
    · exact identifier_piece_inj hid ht ht' h
    · cases s' with
      | index j =>
        obtain ⟨⟨c, rest, hc, hne⟩, -⟩ := Decimal.intDigits_chars j
        simp only [piece, hid, hc, Bool.false_eq_true, if_false, List.cons_append,
          List.cons.injEq, true_and] at h
        exact absurd h.1.symm hne
      | key name' =>
        by_cases hid' : Text.isIdentifier name' = true
        · obtain ⟨hs, ht⟩ := identifier_piece_inj hid' ht' ht h.symm
          exact ⟨hs.symm, ht.symm⟩
        · simp only [piece, hid, hid', Bool.false_eq_true, if_false, escapeName_toList,
            List.cons_append, List.append_assoc, List.nil_append, List.cons.injEq, true_and] at h
          obtain ⟨hnames, ht⟩ := escaped_inj h
          exact ⟨by rw [String.toList_inj.1 hnames], (List.cons.inj ht).2⟩
  | index i =>
    cases s' with
    | index j =>
      have hi := (Decimal.intDigits_chars i).2
      have hj := (Decimal.intDigits_chars j).2
      simp only [piece, List.cons_append, List.append_assoc, List.nil_append, List.cons.injEq,
        true_and] at h
      obtain ⟨hdigits, ht⟩ := append_cons_inj hi hj h
      exact ⟨by rw [Decimal.intDigits_inj hdigits], ht⟩
    | key name' =>
      by_cases hid' : Text.isIdentifier name' = true
      · obtain ⟨hs, ht⟩ := identifier_piece_inj hid' ht' ht h.symm
        exact ⟨hs.symm, ht.symm⟩
      · obtain ⟨⟨c, rest, hc, hne⟩, -⟩ := Decimal.intDigits_chars i
        simp only [piece, hid', hc, Bool.false_eq_true, if_false, List.cons_append,
          List.cons.injEq, true_and] at h
        exact absurd h.1 hne

theorem pieces_inj {a b : List Step} (h : pieces a = pieces b) : a = b := by
  induction a generalizing b with
  | nil =>
    cases b with
    | nil => rfl
    | cons s b => exact absurd (List.append_eq_nil_iff.1 h.symm).1 (piece_ne_nil false s)
  | cons s a ih =>
    cases b with
    | nil => exact absurd (List.append_eq_nil_iff.1 h).1 (piece_ne_nil false s)
    | cons s' b =>
      obtain ⟨rfl, hrest⟩ := piece_inj (pieces_follows a) (pieces_follows b) h
      rw [ih hrest]

/-- Paths from the root that have the same text have the same steps. -/
theorem steps_eq_of_render {a b : List Step} (h : render ⟨"", a⟩ = render ⟨"", b⟩) : a = b := by
  have hne : ∀ s rest, render ⟨"", s :: rest⟩ ≠ "" := by
    intro s rest he
    have hchars := render_root_toList s rest
    rw [he] at hchars
    exact piece_ne_nil true s (List.append_eq_nil_iff.1 hchars.symm).1
  cases a with
  | nil =>
    cases b with
    | nil => rfl
    | cons s b => exact absurd h.symm (hne s b)
  | cons s a =>
    cases b with
    | nil => exact absurd h (hne s a)
    | cons s' b =>
      have hchars := congrArg String.toList h
      rw [render_root_toList, render_root_toList] at hchars
      obtain ⟨rfl, hrest⟩ := piece_inj (pieces_follows a) (pieces_follows b) hchars
      rw [pieces_inj hrest]

/-- Paths are unambiguous. Behind the same base, be it empty or not, two lists of steps have the same
text only if they are the same list: whatever names they hold, quotes, backslashes, brackets and final
line breaks included, and whatever indices. -/
theorem render_determines_steps (base : String) (a b : List Step) :
    render ⟨base, a⟩ = render ⟨base, b⟩ ↔ a = b := by
  refine ⟨fun h => ?_, fun h => by rw [h]⟩
  by_cases hbase : base = ""
  · subst hbase
    exact steps_eq_of_render h
  · have hchars := congrArg String.toList h
    rw [render, render, foldl_extend_toList _ _ hbase, foldl_extend_toList _ _ hbase] at hchars
    exact pieces_inj (List.append_cancel_left hchars)

end Path

end Schemata
