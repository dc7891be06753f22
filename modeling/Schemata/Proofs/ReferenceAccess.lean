import Schemata.Proofs.Identifiers
import Schemata.Proofs.QuotedText
import Schemata.Proofs.ReferenceText
/-!
Access to referenced values.

A check can read the value itself and its siblings. The text of an access is one link after the other:
an identifier as it is, or any other segment in brackets and quotes, and a question mark between links.
No identifier holds a question mark, and a quoted segment says by itself where it ends, so that the
text of an access says which segments it follows (`access_determines`). Halves of surrogate pairs are
the exception: side by side they are not told from the character that the pair stands for
(`accessPath_eq_iff`).
-/

namespace Schemata

namespace Reference

open Text (identifierOf? joinPairs)

/-! ## Links -/

/-- A segment as it stands in an access, without the marks that join it to the one before. -/
def link (segment : List CodePoint) : List Char :=
  match identifierOf? segment with
  | some name => name.toList
  | none => '[' :: (Text.quotedPoints segment).toList ++ [']']

/-- A text that is at its end or goes on with another link. -/
def Joins (cs : List Char) : Prop := ∀ c ∈ cs.head?, c = '?'

theorem accessor_false_toList (segment : List CodePoint) :
    (accessor false segment).toList = '?' :: '.' :: link segment := by
  unfold accessor link
  cases identifierOf? segment <;> simp

theorem accessor_true_toList (segment : List CodePoint) : (accessor true segment).toList =
    if (identifierOf? segment).isSome then '.' :: link segment else link segment := by
  unfold accessor link
  cases identifierOf? segment <;> simp

section
variable {a b : List CodePoint} {name : String} {t t' : List Char}

theorem link_identifier (h : identifierOf? a = some name) : link a = name.toList := by
  rw [link, h]

theorem link_quoted (h : identifierOf? a = none) :
    link a = '[' :: (Text.quotedPoints a).toList ++ [']'] := by
  rw [link, h]

/-- An identifier starts with no bracket, and no question mark is part of it. -/
theorem identifier_chars (h : identifierOf? a = some name) :
    (∃ c rest, name.toList = c :: rest ∧ c ≠ '[') ∧ ∀ c ∈ name.toList, (c != '?') = true := by
  obtain ⟨-, hname⟩ := Text.identifierOf?_eq_some.1 h
  refine ⟨?_, Text.isIdentifier_all (fun c hc => ?_) (by decide) hname⟩
  · obtain ⟨c, rest, hchars, hc, -⟩ := Text.isIdentifier_starts hname
    refine ⟨c, rest, hchars, ?_⟩
    rintro rfl
    exact absurd hc (by decide)
  · rw [bne_iff_ne]
    rintro rfl
    exact absurd hc (by decide)

/-- Identifiers and quoted segments are told apart by their first character. -/
theorem link_ne (ha : identifierOf? a = some name) (hb : identifierOf? b = none)
    (t t' : List Char) : link a ++ t ≠ link b ++ t' := by
  obtain ⟨⟨c, rest, hchars, hc⟩, -⟩ := identifier_chars ha
  rw [link_identifier ha, hchars, link_quoted hb]
  intro h
  exact hc (List.cons.inj h).1

/-- A link is told from what follows it, and says which segment it is up to halves of pairs. -/
theorem link_append_inj (ht : Joins t) (ht' : Joins t') (h : link a ++ t = link b ++ t') :
    joinPairs a = joinPairs b ∧ t = t' := by
  cases ha : identifierOf? a with
  | none =>
    cases hb : identifierOf? b with
    | none =>
      rw [link_quoted ha, link_quoted hb] at h
      simp only [List.cons_append, List.append_assoc, List.nil_append, List.cons.injEq, true_and] at h
      obtain ⟨hjoined, hrest⟩ := Reader.quotedPoints_append_inj h
      exact ⟨hjoined, (List.cons.inj hrest).2⟩
    | some name => exact absurd h.symm (link_ne hb ha t' t)
  | some name =>
    cases hb : identifierOf? b with
    | none => exact absurd h (link_ne ha hb t t')
    | some name' =>
      obtain ⟨-, hchars⟩ := identifier_chars ha
      obtain ⟨-, hchars'⟩ := identifier_chars hb
      have hends : ∀ cs, Joins cs → ∀ c ∈ cs.head?, (c != '?') = false :=
        fun cs hcs c hc => by simp [hcs c hc]
      obtain ⟨hfront, hrest⟩ := Text.span_of_class hchars (hends t ht)
      obtain ⟨hfront', hrest'⟩ := Text.span_of_class hchars' (hends t' ht')
      rw [link_identifier ha, link_identifier hb] at h
      rw [h] at hfront hrest
      obtain rfl : name = name' := String.toList_inj.1 (hfront.symm.trans hfront')
      rw [(Text.identifierOf?_eq_some.1 ha).1, (Text.identifierOf?_eq_some.1 hb).1]
      exact ⟨rfl, hrest.symm.trans hrest'⟩

/-- The first link has a dot before it exactly if it is an identifier. -/
theorem accessor_true_inj (ht : Joins t) (ht' : Joins t')
    (h : (accessor true a).toList ++ t = (accessor true b).toList ++ t') :
    joinPairs a = joinPairs b ∧ t = t' := by
  rw [accessor_true_toList, accessor_true_toList] at h
  cases ha : identifierOf? a <;> cases hb : identifierOf? b <;>
    simp only [ha, hb, Option.isSome_none, Option.isSome_some, if_true, Bool.false_eq_true, if_false,
      List.cons_append] at h
  · exact link_append_inj ht ht' h
  · rw [link_quoted ha] at h
    exact absurd (List.cons.inj h).1 (by decide)
  · rw [link_quoted hb] at h
    exact absurd (List.cons.inj h).1 (by decide)
  · exact link_append_inj ht ht' (List.cons.inj h).2

theorem accessor_true_ne_nil (segment : List CodePoint) : (accessor true segment).toList ≠ [] := by
  rw [accessor_true_toList]
  split
  · exact List.cons_ne_nil _ _
  · rename_i h
    rw [link_quoted (by simpa using h)]
    exact List.cons_ne_nil _ _

end

/-! ## Chains -/

/-- The links behind the first one. -/
def links (segments : List (List CodePoint)) : List Char :=
  (Text.concat (segments.map (accessor false))).toList

theorem links_cons (segment : List CodePoint) (segments : List (List CodePoint)) :
    links (segment :: segments) = '?' :: '.' :: (link segment ++ links segments) := by
  simp [links, Text.concat, accessor_false_toList]

theorem joins_links (segments : List (List CodePoint)) : Joins (links segments) := by
  cases segments with
  | nil => simp [Joins, links, Text.concat]
  | cons segment segments => simp [Joins, links_cons]

theorem links_inj {a b : List (List CodePoint)} (h : links a = links b) :
    a.map joinPairs = b.map joinPairs := by
  induction a generalizing b with
  | nil =>
    cases b with
    | nil => rfl
    | cons s b => rw [links_cons] at h; cases h
  | cons s a ih =>
    cases b with
    | nil => rw [links_cons] at h; cases h
    | cons s' b =>
      simp only [links_cons, List.cons.injEq, true_and] at h
      obtain ⟨hsegment, hrest⟩ := link_append_inj (joins_links a) (joins_links b) h
      rw [List.map_cons, List.map_cons, hsegment, ih hrest]

theorem accessPath_cons (segment : List CodePoint) (segments : List (List CodePoint)) :
    (accessPath (segment :: segments)).toList =
      "value".toList ++ ((accessor true segment).toList ++ links segments) := by
  simp [accessPath, links]

theorem accessPath_ne_value (segment : List CodePoint) (segments : List (List CodePoint)) :
    accessPath (segment :: segments) ≠ accessPath [] := by
  intro h
  have hchars := congrArg String.toList h
  rw [accessPath_cons, accessPath, List.append_right_eq_self, List.append_eq_nil_iff] at hchars
  exact accessor_true_ne_nil segment hchars.1

theorem accessPath_inj {a b : List (List CodePoint)} (h : accessPath a = accessPath b) :
    a.map joinPairs = b.map joinPairs := by
  cases a with
  | nil =>
    cases b with
    | nil => rfl
    | cons s b => exact absurd h.symm (accessPath_ne_value s b)
  | cons s a =>
    cases b with
    | nil => exact absurd h (accessPath_ne_value s a)
    | cons s' b =>
      have hchars := congrArg String.toList h
      rw [accessPath_cons, accessPath_cons, List.append_cancel_left_eq] at hchars
      obtain ⟨hsegment, hrest⟩ := accessor_true_inj (joins_links a) (joins_links b) hchars
      rw [List.map_cons, List.map_cons, hsegment, links_inj hrest]

theorem accessor_joinPairs (first : Bool) (segment : List CodePoint) :
    accessor first (joinPairs segment) = accessor first segment := by
  rw [accessor, accessor, Text.identifierOf?_joinPairs, Text.quotedPoints_joinPairs]

theorem accessPath_joinPairs (segments : List (List CodePoint)) :
    accessPath (segments.map joinPairs) = accessPath segments := by
  cases segments with
  | nil => rfl
  | cons segment segments =>
    have hrest : (segments.map joinPairs).map (accessor false) = segments.map (accessor false) := by
      rw [List.map_map]
      exact List.map_congr_left fun s _ => accessor_joinPairs false s
    rw [List.map_cons, accessPath, accessPath, accessor_joinPairs, hrest]

/-- The text of an access says which segments it follows, up to halves of pairs. -/
theorem accessPath_eq_iff {a b : List (List CodePoint)} :
    accessPath a = accessPath b ↔ a.map joinPairs = b.map joinPairs := by
  refine ⟨accessPath_inj, fun h => ?_⟩
  rw [← accessPath_joinPairs a, h, accessPath_joinPairs]

/-- Segments that are texts have no halves of pairs in them. -/
theorem accessChain_inj {a b : List String} (h : accessChain a = accessChain b) : a = b := by
  have hpoints : ∀ l : List String, (l.map Text.points).map joinPairs = l.map Text.points := by
    intro l
    rw [List.map_map]
    exact List.map_congr_left fun s _ => Text.joinPairs_points s
  have hsegments := accessPath_inj h
  rw [hpoints, hpoints] at hsegments
  exact List.map_injective_iff.2 (fun _ _ => Text.points_inj) hsegments

/-! ## Outcomes -/

/-- Whether a check can read a reference: it starts at the value itself or beside it. -/
def IsNear (r : Reference) : Prop := r.scope = .value ∧ (r.ancestor = 0 ∨ r.ancestor = 1)

/-- The properties that an access to a reference follows, from the object that is checked. -/
def accessed (r : Reference) (field : String) : List String :=
  if r.ancestor = 0 then field :: r.segments else r.segments

theorem IsNear.isShown {r : Reference} (h : r.IsNear) : r.isShown = true := by
  obtain ⟨-, h⟩ := h
  simp only [Reference.isShown, Bool.or_eq_true, Bool.and_eq_true, decide_eq_true_eq]
  omega

/-- All that access to a reference can give. -/
theorem access_cases (r : Reference) (field : String) (path : Path) :
    (r.IsNear ∧ r.access field path = .ok (accessChain (r.accessed field))) ∨
      (¬r.IsNear ∧ r.isShown = true ∧ r.access field path =
        .error (.rejected ⟨.unsupported (.conditional (.outside r.display)), path⟩)) ∨
      (¬r.IsNear ∧ r.isShown = false ∧ r.access field path = .error (.defect .uncountedDots)) := by
  unfold access
  split
  · rename_i hsibling
    refine .inl ⟨⟨hsibling.1, .inr hsibling.2⟩, ?_⟩
    simp [accessed, hsibling.2]
  · rename_i hsibling
    split
    · rename_i hself
      refine .inl ⟨⟨hself.1, .inl hself.2⟩, ?_⟩
      simp [accessed, hself.2]
    · rename_i hself
      have hfar : ¬r.IsNear := fun ⟨hscope, hancestor⟩ =>
        hancestor.elim (fun h => hself ⟨hscope, h⟩) fun h => hsibling ⟨hscope, h⟩
      split
      · rename_i hshown
        exact .inr (.inl ⟨hfar, hshown, rfl⟩)
      · rename_i hshown
        exact .inr (.inr ⟨hfar, by simpa using hshown, rfl⟩)

section
variable {r : Reference} {field text : String} {path : Path}

theorem access_ok_iff :
    r.access field path = .ok text ↔ r.IsNear ∧ accessChain (r.accessed field) = text := by
  obtain ⟨hnear, haccess⟩ | ⟨hfar, -, haccess⟩ | ⟨hfar, -, haccess⟩ := r.access_cases field path
  · rw [haccess, Except.ok.injEq, and_iff_right hnear]
  · simp [haccess, hfar]
  · simp [haccess, hfar]

theorem access_refused_iff :
    (∃ feature p, r.access field path = .error (.rejected ⟨.unsupported feature, p⟩)) ↔
      ¬r.IsNear ∧ r.isShown = true := by
  obtain ⟨hnear, haccess⟩ | ⟨hfar, hshown, haccess⟩ | ⟨hfar, hshown, haccess⟩ :=
    r.access_cases field path
  · simp [haccess, hnear]
  · exact ⟨fun _ => ⟨hfar, hshown⟩, fun _ => ⟨_, _, haccess⟩⟩
  · simp [haccess, hshown]

theorem access_uncounted_iff :
    r.access field path = .error (.defect .uncountedDots) ↔ r.isShown = false := by
  obtain ⟨hnear, haccess⟩ | ⟨hfar, hshown, haccess⟩ | ⟨hfar, hshown, haccess⟩ :=
    r.access_cases field path
  · simp [haccess, hnear.isShown]
  · simp [haccess, hshown]
  · simp [haccess, hshown]

end

/-- References that start elsewhere than at the value itself or beside it are refused, except that the
dots of some cannot be counted. All others have an access, and two accesses with the same text follow
the same properties, even if one of them starts at the value itself and the other beside it. Segments
with halves of surrogate pairs in them are only told up to joining these. -/
theorem access_determines (r r' : Reference) (field field' : String) (path path' : Path) :
    ((∃ feature p, r.access field path = .error (.rejected ⟨.unsupported feature, p⟩)) ↔
      (r.scope ≠ .value ∨ r.ancestor ≠ 0 ∧ r.ancestor ≠ 1) ∧ r.isShown = true) ∧
    (r.access field path = .error (.defect .uncountedDots) ↔ r.isShown = false) ∧
    ((∃ text, r.access field path = .ok text) ↔
      r.scope = .value ∧ (r.ancestor = 0 ∨ r.ancestor = 1)) ∧
    (∀ text, r.access field path = .ok text → r'.access field' path' = .ok text →
      r.accessed field = r'.accessed field') ∧
    ∀ a b : List (List CodePoint),
      accessPath a = accessPath b ↔ a.map joinPairs = b.map joinPairs := by
  have hfar : (r.scope ≠ .value ∨ r.ancestor ≠ 0 ∧ r.ancestor ≠ 1) ↔ ¬r.IsNear := by
    rw [IsNear, not_and_or, not_or]
  refine ⟨by rw [hfar, access_refused_iff], access_uncounted_iff, ?_, ?_,
    fun _ _ => accessPath_eq_iff⟩
  · simp only [access_ok_iff]
    exact ⟨fun ⟨_, hnear, _⟩ => hnear, fun hnear => ⟨_, hnear, rfl⟩⟩
  · intro text h h'
    exact accessChain_inj ((access_ok_iff.1 h).2.trans (access_ok_iff.1 h').2.symm)

/-- A property of the value itself, and the same property reached from beside it. Its segments hold
what stands between and around links, and a line break. -/
theorem access_determines_links :
    access ⟨["b\"]?.c", "d\n"], 0, .value⟩ "a" .root = .ok "value.a?.[\"b\\\"]?.c\"]?.d\n" ∧
    access ⟨["a", "b\"]?.c", "d\n"], 1, .value⟩ "e" .root = .ok "value.a?.[\"b\\\"]?.c\"]?.d\n" ∧
    accessed ⟨["b\"]?.c", "d\n"], 0, .value⟩ "a" =
      accessed ⟨["a", "b\"]?.c", "d\n"], 1, .value⟩ "e" := by
  refine ⟨rfl, rfl, ?_⟩
  obtain ⟨-, -, -, hinj, -⟩ := access_determines ⟨["b\"]?.c", "d\n"], 0, .value⟩
    ⟨["a", "b\"]?.c", "d\n"], 1, .value⟩ "a" "e" .root .root
  exact hinj _ rfl rfl

/-- A reference that is neither refused nor read: its dots are fewer than a word of 64 bits can say. And
two segments with one access: a character, and the two halves of its surrogate pair. -/
theorem access_not_refused :
    let r : Reference := ⟨["a"], -99999999999999999999, .value⟩
    ((r.scope ≠ .value ∨ r.ancestor ≠ 0 ∧ r.ancestor ≠ 1) ∧
      ¬∃ feature p, r.access "f" .root = .error (.rejected ⟨.unsupported feature, p⟩)) ∧
    accessPath [[0xD83D, 0xDE00]] = accessPath [[0x1F600]] ∧
      ([0xD83D, 0xDE00] : List CodePoint) ≠ [0x1F600] := by
  refine ⟨⟨by decide, ?_⟩, accessPath_eq_iff.2 (by decide), by decide⟩
  rintro ⟨feature, p, h⟩
  cases h

end Reference

end Schemata
