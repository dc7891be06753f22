import Mathlib.Data.List.Nodup
import Mathlib.Data.List.TakeWhile
import Schemata.Text.Identifier
/-!
Identifiers and words.

An identifier may end in a line break, which belongs to the name and not to the word that it is in the
generated code. Names that only differ in such a line break are the same word.

Component: identifiers, `Text.isIdentifier`. Main results:
- `isIdentifier_cases` — what an identifier consists of;
- `words_nodup_iff` — when different identifiers are different words.
-/

namespace Schemata

namespace Text

/-! ## What identifiers consist of -/

theorem isIdentifierTail_cases {chars : List Char} (h : isIdentifierTail chars = true) :
    ∃ front, (∀ c ∈ front, continuesIdentifier c = true) ∧
      (chars = front ∨ chars = front ++ ['\n']) := by
  fun_induction isIdentifierTail chars with
  | case1 => exact ⟨[], by simp, .inl rfl⟩
  | case2 => exact ⟨[], by simp, .inr rfl⟩
  | case3 c rest _ ih =>
    obtain ⟨hc, hrest⟩ : continuesIdentifier c = true ∧ isIdentifierTail rest = true := by
      simpa using h
    obtain ⟨front, hfront, heq⟩ := ih hrest
    refine ⟨c :: front, List.forall_mem_cons.2 ⟨hc, hfront⟩, ?_⟩
    rcases heq with rfl | rfl
    · exact .inl rfl
    · exact .inr rfl

theorem continues_of_starts {c : Char} (h : startsIdentifier c = true) :
    continuesIdentifier c = true := by
  simp only [startsIdentifier, continuesIdentifier, Char.isAlphanum, Bool.or_eq_true] at h ⊢
  tauto

/-- An identifier has a first letter. -/
theorem isIdentifier_starts {name : String} (h : isIdentifier name = true) :
    ∃ c rest, name.toList = c :: rest ∧ startsIdentifier c = true ∧ isIdentifierTail rest = true := by
  unfold isIdentifier at h
  split at h
  · cases h
  · rename_i c rest hname
    obtain ⟨hc, hrest⟩ : startsIdentifier c = true ∧ isIdentifierTail rest = true := by
      simpa using h
    exact ⟨c, rest, hname, hc, hrest⟩

/-- An identifier consists of identifier characters, apart from a line break that may end it. -/
theorem isIdentifier_cases {name : String} (h : isIdentifier name = true) :
    ∃ front, (∀ c ∈ front, continuesIdentifier c = true) ∧
      (name = String.ofList front ∨ name = String.ofList front ++ "\n") := by
  obtain ⟨c, rest, hname, hc, hrest⟩ := isIdentifier_starts h
  obtain ⟨front, hfront, heq⟩ := isIdentifierTail_cases hrest
  refine ⟨c :: front, List.forall_mem_cons.2 ⟨continues_of_starts hc, hfront⟩, ?_⟩
  rcases heq with rfl | rfl
  · exact .inl (String.toList_inj.1 (by simp [hname]))
  · exact .inr (String.toList_inj.1 (by simp [hname]))

/-- What holds of identifier characters and of the line break holds of an identifier. -/
theorem isIdentifier_all {P : Char → Prop} (hcontinues : ∀ c, continuesIdentifier c = true → P c)
    (hbreak : P '\n') {name : String} (h : isIdentifier name = true) : ∀ c ∈ name.toList, P c := by
  obtain ⟨front, hfront, rfl | rfl⟩ := isIdentifier_cases h
  · rw [String.toList_ofList]
    exact fun c hc => hcontinues c (hfront c hc)
  · rw [String.toList_append, String.toList_ofList, List.forall_mem_append]
    exact ⟨fun c hc => hcontinues c (hfront c hc), List.forall_mem_singleton.2 hbreak⟩

/-! ## Words -/

/-- The characters of an identifier that a text starts with. -/
def word (chars : List Char) : String := String.ofList (chars.takeWhile continuesIdentifier)

/-- A text of identifier characters that goes on with anything else is the word at its start. -/
theorem word_append {front rest : List Char} {d : Char}
    (hfront : ∀ c ∈ front, continuesIdentifier c = true) (hd : continuesIdentifier d = false) :
    word (front ++ d :: rest) = String.ofList front := by
  rw [word, List.takeWhile_append_of_pos hfront, List.takeWhile_cons_of_neg (by simp [hd]),
    List.append_nil]

/-- A name is its word, or its word and a line break. -/
theorem eq_word_of_isIdentifier {name : String} (h : isIdentifier name = true) :
    name = word name.toList ∨ name = word name.toList ++ "\n" := by
  obtain ⟨front, hfront, rfl | rfl⟩ := isIdentifier_cases h
  · rw [String.toList_ofList, word, List.takeWhile_eq_self_iff.2 hfront]
    exact .inl rfl
  · rw [String.toList_append, String.toList_ofList]
    exact .inr (congrArg (· ++ "\n") (word_append hfront (by decide)).symm)

/-- What follows a name does not change its word if it does not go on with the name. -/
theorem word_isIdentifier_append {name : String} {d : Char} (h : isIdentifier name = true)
    (hd : continuesIdentifier d = false) (rest : List Char) :
    word (name.toList ++ d :: rest) = word name.toList := by
  obtain ⟨front, hfront, rfl | rfl⟩ := isIdentifier_cases h
  · rw [String.toList_ofList, word_append hfront hd, word, List.takeWhile_eq_self_iff.2 hfront]
  · have hword : ∀ rest, word (front ++ '\n' :: rest) = String.ofList front :=
      fun rest => word_append hfront (by decide)
    rw [String.toList_append, String.toList_ofList, List.append_assoc]
    exact (hword _).trans (hword []).symm

theorem word_eq_iff {name w : String} (h : isIdentifier name = true)
    (hw : w.toList.all continuesIdentifier = true) :
    word name.toList = w ↔ name = w ∨ name = w ++ "\n" := by
  have hw := List.all_eq_true.1 hw
  constructor
  · rintro rfl
    exact eq_word_of_isIdentifier h
  · rintro (rfl | rfl)
    · rw [word, List.takeWhile_eq_self_iff.2 hw, String.ofList_toList]
    · rw [String.toList_append]
      exact (word_append hw (by decide)).trans String.ofList_toList

theorem mem_words_iff {names : List String} {w : String}
    (h : ∀ name ∈ names, isIdentifier name = true)
    (hw : w.toList.all continuesIdentifier = true) :
    w ∈ names.map (fun name => word name.toList) ↔ w ∈ names ∨ w ++ "\n" ∈ names := by
  rw [List.mem_map]
  constructor
  · rintro ⟨name, hname, heq⟩
    rcases (word_eq_iff (h name hname) hw).1 heq with rfl | rfl
    · exact .inl hname
    · exact .inr hname
  · rintro (hname | hname)
    · exact ⟨w, hname, (word_eq_iff (h w hname) hw).2 (.inl rfl)⟩
    · exact ⟨w ++ "\n", hname, (word_eq_iff (h _ hname) hw).2 (.inr rfl)⟩

/-- Different identifiers are different words unless they only differ in a line break at the end. -/
theorem words_nodup_iff {names : List String} (hnames : names.Nodup)
    (h : ∀ name ∈ names, isIdentifier name = true) :
    (names.map fun name => word name.toList).Nodup ↔ ∀ name ∈ names, name ++ "\n" ∉ names := by
  rw [List.nodup_map_iff_inj_on hnames]
  constructor
  · intro hinj name hname hbreak
    have hword : word (name ++ "\n").toList = word name.toList := by
      rw [String.toList_append]
      exact word_isIdentifier_append (h name hname) (by decide) []
    simpa using hinj _ hbreak name hname hword
  · intro hbreak a ha b hb heq
    have hb' := eq_word_of_isIdentifier (h b hb)
    rw [← heq] at hb'
    -- Both are the common word, one of them possibly with a line break.
    rcases eq_word_of_isIdentifier (h a ha) with hword | hword <;> rcases hb' with hword' | hword'
    · rw [hword, hword']
    · exact absurd (hword ▸ hword' ▸ hb) (hbreak a ha)
    · exact absurd (hword' ▸ hword ▸ ha) (hbreak b hb)
    · rw [hword, hword']

end Text

end Schemata
