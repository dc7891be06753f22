import Mathlib.Data.List.Basic
import Mathlib.Data.List.TakeWhile
import Schemata.Reference
/-!
The texts of references.

A reference is spelled as a marker for its starting point and segments with single dots between them.
The dot is a marker and a separator, and behind its first character a segment may hold all other marks
and blanks; but no segment starts with a mark, so that the marker is all marks in front of a text, and
a text is spelled in one way at most.

Main statements: reading accepts exactly the texts that are spelled, the word `ref:` in front of them or
not, and gives the segments and the starting point of the spelling; and the text that a reference
shows is read as that reference again, unless it starts with the word `ref:` itself, which only the
text of a sibling can.

Component: the reader and the text of references, `Reference.parse` and `Reference.display`. Main
results:
- `parse_spelled` — reading accepts exactly what is spelled, and gives what is meant;
- `display_parse_iff` — when the text of a reference is read as that reference again.
-/

namespace Schemata

namespace Text

/-! ## Cutting and joining -/

theorem cutAt_eq_splitOn (mark : Char) (cs : List Char) : cutAt mark cs = cs.splitOn mark := by
  induction cs with
  | nil => rfl
  | cons c rest ih =>
    rw [cutAt, ih, List.splitOn_eq_splitOnP, List.splitOn_eq_splitOnP,
      List.splitOnP_cons_eq_if_modifyHead]
    simp only [beq_iff_eq]
    split
    · rfl
    · obtain ⟨part, parts, hparts⟩ :=
        List.exists_cons_of_ne_nil (List.splitOnP_ne_nil (· == mark) rest)
      rw [hparts]
      rfl

/-- What is cut at a mark holds no mark. -/
theorem not_mem_of_mem_cutAt {mark : Char} {cs piece : List Char} (h : piece ∈ cutAt mark cs) :
    mark ∉ piece := by
  fun_induction cutAt mark cs generalizing piece with
  | case1 => simp_all
  | case2 rest ih =>
    rcases List.mem_cons.1 h with rfl | h
    · exact List.not_mem_nil
    · exact ih h
  | case3 c rest hc hnil ih =>
    rw [List.mem_singleton.1 h, List.mem_singleton]
    exact Ne.symm hc
  | case4 c rest hc part parts hparts ih =>
    rw [hparts, List.forall_mem_cons] at ih
    rcases List.mem_cons.1 h with rfl | h
    · exact List.not_mem_cons_of_ne_of_not_mem (Ne.symm hc) ih.1
    · exact ih.2 piece h

theorem join_toList (separator : String) (pieces : List String) :
    (join separator pieces).toList = separator.toList.intercalate (pieces.map String.toList) := by
  fun_induction join separator pieces with
  | case1 => rfl
  | case2 piece => simp
  | case3 piece next rest ih => simp [ih, List.intercalate_cons_cons]

/-- Pieces without the mark are told apart again. -/
theorem cutAt_join {mark : Char} {separator : String} (hseparator : separator.toList = [mark])
    {pieces : List String} (hne : pieces ≠ []) (h : ∀ piece ∈ pieces, mark ∉ piece.toList) :
    cutAt mark (join separator pieces).toList = pieces.map String.toList := by
  rw [cutAt_eq_splitOn, join_toList, hseparator]
  exact List.splitOn_intercalate mark (List.forall_mem_map.2 h) (by simpa using hne)

/-- Cut pieces make up the text. -/
theorem join_cutAt {mark : Char} {separator : String} (hseparator : separator.toList = [mark])
    (cs : List Char) : (join separator ((cutAt mark cs).map String.ofList)).toList = cs := by
  have hpieces : ((cutAt mark cs).map String.ofList).map String.toList = cs.splitOn mark := by
    simp [cutAt_eq_splitOn, Function.comp_def]
  rw [join_toList, hpieces, hseparator, List.intercalate_splitOn]

/-- A class of characters ends where a text goes on with another one. -/
theorem span_of_class {p : Char → Bool} {front rest : List Char} (hfront : ∀ c ∈ front, p c = true)
    (hrest : ∀ c ∈ rest.head?, p c = false) :
    (front ++ rest).takeWhile p = front ∧ (front ++ rest).dropWhile p = rest := by
  have hstop : rest.takeWhile p = [] ∧ rest.dropWhile p = rest := by
    cases rest with
    | nil => exact ⟨rfl, rfl⟩
    | cons c tail => simp [hrest c rfl]
  rw [List.takeWhile_append_of_pos hfront, List.dropWhile_append_of_pos hfront, hstop.1, hstop.2,
    List.append_nil]
  exact ⟨rfl, rfl⟩

/-- A text in front of two others that has no character at which the second one begins is in front of
the first one. -/
theorem isPrefix_of_append {tag front rest : List Char} (h : tag <+: front ++ rest)
    (hrest : ∀ c ∈ rest.head?, c ∉ tag) : tag <+: front := by
  induction front generalizing tag with
  | nil =>
    cases tag with
    | nil => exact List.nil_prefix
    | cons c tag =>
      obtain ⟨more, rfl⟩ := h
      exact absurd List.mem_cons_self (hrest c rfl)
  | cons c front ih =>
    cases tag with
    | nil => exact List.nil_prefix
    | cons d tag =>
      obtain ⟨rfl, htag⟩ := List.cons_prefix_cons.1 h
      refine List.cons_prefix_cons.2 ⟨rfl, ih htag fun c hc hmem => ?_⟩
      exact hrest c hc (List.mem_cons_of_mem d hmem)

end Text

namespace Reference

/-! ## Spelling -/

/-- What stands in front of the segments of a reference. -/
inductive Marker where
  /-- Nothing, for a sibling of the value. -/
  | bare
  /-- `$` -/
  | context
  /-- `/` -/
  | root
  /-- `#` -/
  | inner
  /-- One dot for the value itself, and one more for each level above it. -/
  | dots (count : Nat) (pos : 0 < count)
deriving DecidableEq, Repr

namespace Marker

def text : Marker → String
  | bare => ""
  | context => "$"
  | root => "/"
  | inner => "#"
  | dots count _ => Text.copies count '.'

def scope : Marker → Scope
  | bare => .value
  | context => .context
  | root => .root
  | inner => .inner
  | dots _ _ => .value

def ancestor : Marker → Int
  | bare => 1
  | dots count _ => count - 1
  | _ => 0

end Marker

/-- A text that may stand between two dots: it is not empty, has no dot in it, and does not start with
another mark or a blank. -/
structure Segment (text : String) : Prop where
  undotted : '.' ∉ text.toList
  starts : ∃ c rest, text.toList = c :: rest ∧ c ∉ ['$', '/', '#'] ∧ Text.isBlank c = false

/-- A way to spell a reference. -/
structure Spelling where
  marker : Marker
  segments : List String
  segments_ne_nil : segments ≠ []
  isSegment : ∀ s ∈ segments, Segment s

namespace Spelling

/-- The text that is spelled. -/
def text (s : Spelling) : String := s.marker.text ++ Text.join "." s.segments

/-- The reference that is meant. -/
def reference (s : Spelling) : Reference := ⟨s.segments, s.marker.ancestor, s.marker.scope⟩

/-- Whether a key is the text of a spelling, with the word `ref:` in front of it or without. A key that
starts with this word is never taken as a whole. -/
def Spells (s : Spelling) (key : String) : Prop :=
  key = "ref:" ++ s.text ∨ ¬"ref:".toList <+: key.toList ∧ key = s.text

end Spelling

/-! ## Marks -/

/-- The characters that markers consist of. -/
def isMark (c : Char) : Bool := ['.', '$', '/', '#'].contains c

theorem Marker.isMark_of_mem {m : Marker} : ∀ c ∈ m.text.toList, isMark c = true := by
  cases m with
  | bare => simp [text]
  | context => exact List.all_eq_true.1 rfl
  | root => exact List.all_eq_true.1 rfl
  | inner => exact List.all_eq_true.1 rfl
  | dots count pos =>
    intro c hc
    rw [text, Text.copies, String.toList_ofList] at hc
    rw [List.eq_of_mem_replicate hc]
    rfl

theorem Marker.head?_dots (count : Nat) (pos : 0 < count) :
    (dots count pos).text.toList.head? = some '.' := by
  rw [text, Text.copies, String.toList_ofList, List.head?_replicate, if_neg (by omega)]

/-- A marker is known by its first character and its length. -/
theorem Marker.text_inj {m m' : Marker} (h : m.text = m'.text) : m = m' := by
  have hhead : m.text.toList.head? = m'.text.toList.head? := by rw [h]
  cases m with
  | dots count pos =>
    rw [head?_dots] at hhead
    cases m' with
    | dots count' pos' =>
      have hcount : count = count' := by
        simpa [text, Text.copies] using congrArg (·.toList.length) h
      subst hcount
      rfl
    | _ => exact absurd hhead (by decide)
  | _ =>
    cases m' with
    | dots count' pos' =>
      rw [head?_dots] at hhead
      exact absurd hhead (by decide)
    | _ =>
      revert hhead
      decide

/-- The first character of a segment is no mark. -/
theorem Segment.not_isMark {text : String} (h : Segment text) :
    ∃ c rest, text.toList = c :: rest ∧ isMark c = false := by
  obtain ⟨c, rest, htext, hmarks, -⟩ := h.starts
  refine ⟨c, rest, htext, ?_⟩
  have hdot : c ≠ '.' := by
    rintro rfl
    exact h.undotted (htext ▸ List.mem_cons_self)
  simpa [isMark, hdot] using hmarks

theorem isSegment_iff {text : String} (hdot : '.' ∉ text.toList) :
    isSegment text.toList = true ↔ Segment text := by
  constructor
  · intro h
    refine ⟨hdot, ?_⟩
    unfold isSegment at h
    split at h
    · cases h
    · rename_i c rest htext
      have hc : c ≠ '.' ∧ c ∉ ['$', '/', '#'] ∧ Text.isBlank c = false := by
        simpa [and_assoc] using h
      exact ⟨c, rest, htext, hc.2⟩
  · rintro ⟨-, c, rest, htext, hmarks, hblank⟩
    have hc : c ≠ '.' := by
      rintro rfl
      exact hdot (htext ▸ List.mem_cons_self)
    simp_all [isSegment]

/-! ## Reading markers -/

theorem scanMarker_dots {cs : List Char} (h : cs.head? = some '.') : scanMarker cs =
    ((.value, (cs.takeWhile (· == '.')).length - (1 : Int)), cs.dropWhile (· == '.')) := by
  obtain ⟨rest, rfl⟩ := List.head?_eq_some_iff.1 h
  rfl

theorem scanMarker_bare {cs : List Char} (h : ∀ c ∈ cs.head?, isMark c = false) :
    scanMarker cs = ((.value, 1), cs) := by
  unfold scanMarker
  split
  · exact absurd (h '$' rfl) (by decide)
  · exact absurd (h '/' rfl) (by decide)
  · exact absurd (h '#' rfl) (by decide)
  · exact absurd (h '.' rfl) (by decide)
  · rfl

/-- A marker is read, and nothing of what follows it. -/
theorem scanMarker_text (m : Marker) {body : List Char} (hbody : ∀ c ∈ body.head?, isMark c = false) :
    scanMarker (m.text.toList ++ body) = ((m.scope, m.ancestor), body) := by
  cases m with
  | context => rfl
  | root => rfl
  | inner => rfl
  | bare => exact scanMarker_bare hbody
  | dots count pos =>
    have hdots : (Marker.dots count pos).text.toList = List.replicate count '.' := by
      rw [Marker.text, Text.copies, String.toList_ofList]
    have hhead : (List.replicate count '.' ++ body).head? = some '.' := by
      rw [← hdots, List.head?_append, Marker.head?_dots, Option.some_or]
    have hbody' : ∀ c ∈ body.head?, (c == '.') = false := by
      intro c hc
      have hmark := hbody c hc
      simp only [isMark, List.contains_cons, Bool.or_eq_false_iff] at hmark
      exact hmark.1
    have hall : ∀ c ∈ List.replicate count '.', (c == '.') = true := by simp
    have hspan := Text.span_of_class hall hbody'
    rw [hdots, scanMarker_dots hhead, hspan.1, hspan.2, List.length_replicate]
    rfl

/-- Every text has a marker in front, which may be empty. -/
theorem exists_marker (cs : List Char) :
    ∃ m : Marker, cs = m.text.toList ++ (scanMarker cs).2 ∧
      (scanMarker cs).1 = (m.scope, m.ancestor) := by
  by_cases hdots : cs.head? = some '.'
  · rw [scanMarker_dots hdots]
    have hall : cs.takeWhile (· == '.') = List.replicate (cs.takeWhile (· == '.')).length '.' :=
      List.eq_replicate_iff.2 ⟨rfl, fun c hc => by simpa using List.mem_takeWhile_imp hc⟩
    have hpos : 0 < (cs.takeWhile (· == '.')).length := by
      obtain ⟨rest, rfl⟩ := List.head?_eq_some_iff.1 hdots
      simp
    refine ⟨.dots _ hpos, ?_, rfl⟩
    rw [Marker.text, Text.copies, String.toList_ofList, ← hall, List.takeWhile_append_dropWhile]
  · unfold scanMarker
    split
    · exact ⟨.context, rfl, rfl⟩
    · exact ⟨.root, rfl, rfl⟩
    · exact ⟨.inner, rfl, rfl⟩
    · exact absurd rfl hdots
    · exact ⟨.bare, rfl, rfl⟩

/-! ## Reading references -/

namespace Spelling

/-- The first segment of a spelling, and what follows it. -/
theorem exists_first (s : Spelling) : ∃ first rest more, s.segments = first :: rest ∧ Segment first ∧
    (Text.join "." s.segments).toList = first.toList ++ more ∧ ∀ c ∈ more.head?, c = '.' := by
  obtain ⟨first, rest, hsegments⟩ := List.exists_cons_of_ne_nil s.segments_ne_nil
  have hfirst := s.isSegment first (hsegments ▸ List.mem_cons_self)
  rw [hsegments]
  cases rest with
  | nil => exact ⟨first, [], [], rfl, hfirst, (List.append_nil _).symm, by simp⟩
  | cons next rest =>
    refine ⟨first, next :: rest, '.' :: (Text.join "." (next :: rest)).toList, rfl, hfirst, ?_, ?_⟩
    · simp [Text.join]
    · simp

/-- Behind the marker comes no mark. -/
theorem head_not_isMark (s : Spelling) :
    ∀ c ∈ (Text.join "." s.segments).toList.head?, isMark c = false := by
  obtain ⟨first, rest, more, -, hfirst, htext, -⟩ := s.exists_first
  obtain ⟨c, tail, hchars, hc⟩ := hfirst.not_isMark
  rw [htext, hchars]
  rintro _ ⟨⟩
  exact hc

theorem text_toList (s : Spelling) :
    s.text.toList = s.marker.text.toList ++ (Text.join "." s.segments).toList := String.toList_append

theorem cutAt_segments (s : Spelling) :
    Text.cutAt '.' (Text.join "." s.segments).toList = s.segments.map String.toList :=
  Text.cutAt_join rfl s.segments_ne_nil fun t ht => (s.isSegment t ht).undotted

/-- A text is spelled in one way. -/
theorem text_inj {s t : Spelling} (h : s.text = t.text) : s = t := by
  have hchars := congrArg String.toList h
  rw [text_toList, text_toList] at hchars
  -- The marker is all marks in front.
  have hs := Text.span_of_class s.marker.isMark_of_mem s.head_not_isMark
  have ht := Text.span_of_class t.marker.isMark_of_mem t.head_not_isMark
  have hmarker : s.marker = t.marker :=
    Marker.text_inj (String.toList_inj.1 (by rw [← hs.1, ← ht.1, hchars]))
  have hsegments : s.segments = t.segments := by
    have hcut := congrArg (Text.cutAt '.') (hs.2.symm.trans ((congrArg _ hchars).trans ht.2))
    rw [cutAt_segments, cutAt_segments] at hcut
    exact List.map_injective_iff.2 (fun _ _ => String.toList_inj.1) hcut
  cases s
  cases t
  cases hmarker
  cases hsegments
  rfl

end Spelling

theorem ofChars?_text (s : Spelling) : ofChars? s.text.toList = some s.reference := by
  have hall : (s.segments.map String.toList).all isSegment = true := by
    rw [List.all_map, List.all_eq_true]
    exact fun t ht => (isSegment_iff (s.isSegment t ht).undotted).2 (s.isSegment t ht)
  rw [ofChars?, s.text_toList, scanMarker_text s.marker s.head_not_isMark]
  simp only [s.cutAt_segments, hall, if_true]
  simp [Spelling.reference, Function.comp_def]

theorem exists_spelling {cs : List Char} {r : Reference} (h : ofChars? cs = some r) :
    ∃ s : Spelling, s.text.toList = cs ∧ s.reference = r := by
  obtain ⟨m, hcs, hm⟩ := exists_marker cs
  generalize hscan : scanMarker cs = scanned at hcs hm
  obtain ⟨⟨scope, ancestor⟩, rest⟩ := scanned
  cases hm
  simp only [ofChars?, hscan] at h
  obtain ⟨hall, hr⟩ := Option.ite_none_right_eq_some.1 h
  cases hr
  have hsegments : ∀ t ∈ (Text.cutAt '.' rest).map String.ofList, Segment t := by
    rw [List.forall_mem_map]
    intro piece hpiece
    have hdot := Text.not_mem_of_mem_cutAt hpiece
    have hsegment := List.all_eq_true.1 hall piece hpiece
    rw [← String.toList_ofList (l := piece)] at hdot hsegment
    exact (isSegment_iff hdot).1 hsegment
  have hne : (Text.cutAt '.' rest).map String.ofList ≠ [] := by
    simp [Text.cutAt_eq_splitOn]
  refine ⟨⟨m, _, hne, hsegments⟩, ?_, rfl⟩
  rw [Spelling.text_toList, Text.join_cutAt rfl, hcs]

/-! ## The word in front -/

theorem withoutTag_tagged (body : String) : withoutTag ("ref:" ++ body) = body := by
  simp [withoutTag]

theorem withoutTag_plain {key : String} (h : ¬"ref:".toList <+: key.toList) :
    withoutTag key = key := by
  unfold withoutTag
  split
  · rename_i rest hkey
    exact absurd ⟨rest, hkey.symm⟩ h
  · rfl

theorem Spelling.spells_iff {s : Spelling} {key : String} : s.Spells key ↔ s.text = withoutTag key := by
  by_cases htag : "ref:".toList <+: key.toList
  · obtain ⟨rest, hkey⟩ := htag
    obtain rfl : key = "ref:" ++ String.ofList rest := String.toList_inj.1 (by simp [← hkey])
    simp [Spells, withoutTag_tagged, eq_comm]
  · have hne : key ≠ "ref:" ++ s.text := by
      rintro rfl
      exact htag ⟨s.text.toList, by simp⟩
    rw [withoutTag_plain htag, Spells, or_iff_right hne, and_iff_right htag, eq_comm]

theorem parse_ok_iff {key : String} {path : Path} {r : Reference} :
    parse key path = .ok r ↔ ofChars? (withoutTag key).toList = some r := by
  simp only [parse]
  cases ofChars? (withoutTag key).toList <;> simp [malformed]

/-- Reading a key succeeds exactly when it is spelled. Then it is spelled in one way, and the result has
the segments and the starting point of the spelling. -/
theorem parse_spelled (key : String) (path : Path) :
    ((∃ r, parse key path = .ok r) ↔ ∃ s : Spelling, s.Spells key) ∧
      (∀ s t : Spelling, s.Spells key → t.Spells key → s = t) ∧
      ∀ s : Spelling, s.Spells key → parse key path = .ok s.reference := by
  have hparse : ∀ s : Spelling, s.Spells key → parse key path = .ok s.reference := by
    intro s hs
    rw [parse_ok_iff, ← Spelling.spells_iff.1 hs, ofChars?_text]
  refine ⟨⟨?_, ?_⟩, ?_, hparse⟩
  · rintro ⟨r, hr⟩
    obtain ⟨s, htext, -⟩ := exists_spelling (parse_ok_iff.1 hr)
    exact ⟨s, Spelling.spells_iff.2 (String.toList_inj.1 htext)⟩
  · rintro ⟨s, hs⟩
    exact ⟨s.reference, hparse s hs⟩
  · intro s t hs ht
    exact Spelling.text_inj ((Spelling.spells_iff.1 hs).trans (Spelling.spells_iff.1 ht).symm)

/-- Two dots and two segments that hold marks, a blank and the word `ref:`. -/
theorem parse_spelled_dots : ∃ s : Spelling, s.Spells "ref:..a$ .ref:/ b" ∧
    s.marker = .dots 2 (by decide) ∧ s.segments = ["a$ ", "ref:/ b"] ∧
    (∀ t : Spelling, t.Spells "ref:..a$ .ref:/ b" → t = s) ∧
    parse "ref:..a$ .ref:/ b" .root = .ok ⟨["a$ ", "ref:/ b"], 1, .value⟩ := by
  have hsegments : ∀ t ∈ ["a$ ", "ref:/ b"], Segment t := by
    refine List.forall_mem_cons.2 ⟨?_, List.forall_mem_singleton.2 ?_⟩
    · exact ⟨by decide, 'a', _, rfl, by decide, by decide⟩
    · exact ⟨by decide, 'r', _, rfl, by decide, by decide⟩
  let s : Spelling := ⟨.dots 2 (by decide), ["a$ ", "ref:/ b"], by decide, hsegments⟩
  have hs : s.Spells "ref:..a$ .ref:/ b" := .inl rfl
  obtain ⟨-, hunique, hparse⟩ := parse_spelled "ref:..a$ .ref:/ b" .root
  exact ⟨s, hs, rfl, rfl, fun t ht => hunique t s ht hs, hparse s hs⟩

/-! ## Showing references -/

/-- The marker that a starting point is shown with. Two dots are as good as none. -/
def Marker.shown : Marker → Marker
  | dots count pos => if count = 2 then bare else dots count pos
  | m => m

/-- What a marker stands for is shown. -/
theorem Marker.stands_shown (m : Marker) : m.shown.scope = m.scope ∧ m.shown.ancestor = m.ancestor := by
  cases m with
  | dots count pos =>
    by_cases hcount : count = 2
    · subst hcount
      exact ⟨rfl, rfl⟩
    · simp [shown, hcount]
  | _ => exact ⟨rfl, rfl⟩

theorem Marker.shown_eq_bare_iff (m : Marker) :
    m.shown = .bare ↔ m.scope = .value ∧ m.ancestor = 1 := by
  cases m with
  | dots count pos =>
    have hcount : (count : Int) - 1 = 1 ↔ count = 2 := by omega
    simp [shown, scope, ancestor, hcount]
  | _ => decide

/-- The spelling that a reference is shown in. -/
def Spelling.shown (s : Spelling) : Spelling := { s with marker := s.marker.shown }

theorem Spelling.reference_shown (s : Spelling) : s.shown.reference = s.reference := by
  simp only [reference, shown, Marker.stands_shown]

theorem Marker.text_shown (m : Marker) (segments : List String) :
    Reference.marker ⟨segments, m.ancestor, m.scope⟩ = m.shown.text := by
  cases m with
  | dots count pos =>
    have hcount : (count : Int) - 1 = 1 ↔ count = 2 := by omega
    simp only [Reference.marker, scope, ancestor, shown, hcount]
    split
    · rfl
    · simp [text]
  | _ => rfl

theorem Spelling.display_reference (s : Spelling) : s.reference.display = s.shown.text :=
  congrArg (· ++ Text.join "." s.segments) (s.marker.text_shown s.segments)

/-- A text starts with the word `ref:` if it has no marker and its first segment starts so. -/
theorem Spelling.tagged_iff (s : Spelling) : "ref:".toList <+: s.text.toList ↔
    s.marker = .bare ∧ ∃ first rest, s.segments = first :: rest ∧ "ref:".toList <+: first.toList := by
  obtain ⟨first, rest, more, hsegments, -, htext, hmore⟩ := s.exists_first
  rw [s.text_toList, htext]
  constructor
  · intro htag
    have hbare : s.marker = .bare := by
      cases hmarker : s.marker.text.toList with
      | nil => exact Marker.text_inj (String.toList_inj.1 hmarker)
      | cons c cs =>
        -- The word starts with no mark.
        have hc := s.marker.isMark_of_mem c (hmarker ▸ List.mem_cons_self)
        rw [hmarker] at htag
        obtain ⟨rfl, -⟩ := List.cons_prefix_cons.1 htag
        exact absurd hc (by decide)
    rw [hbare] at htag
    refine ⟨hbare, first, rest, hsegments, Text.isPrefix_of_append htag fun c hc => ?_⟩
    rw [hmore c hc]
    decide
  · rintro ⟨hbare, first', rest', hsegments', htag⟩
    rw [hsegments] at hsegments'
    cases hsegments'
    rw [hbare]
    exact htag.trans (List.prefix_append first.toList more)

/-- The text of a reference that was read is read as that reference again, unless it is the text of a
sibling whose first segment starts with the word `ref:`. -/
theorem display_parse_iff {key : String} {path path' : Path} {r : Reference}
    (h : parse key path = .ok r) : parse r.display path' = .ok r ↔
      ¬(r.scope = .value ∧ r.ancestor = 1 ∧
        ∃ first rest, r.segments = first :: rest ∧ "ref:".toList <+: first.toList) := by
  obtain ⟨s, -, rfl⟩ := exists_spelling (parse_ok_iff.1 h)
  have htagged : "ref:".toList <+: s.shown.text.toList ↔
      s.reference.scope = .value ∧ s.reference.ancestor = 1 ∧
        ∃ first rest, s.reference.segments = first :: rest ∧ "ref:".toList <+: first.toList := by
    rw [s.shown.tagged_iff, ← and_assoc]
    exact and_congr_left' (Marker.shown_eq_bare_iff s.marker)
  rw [← htagged, s.display_reference]
  constructor
  · intro hparse htag
    -- What is left without the word is too short for the same segments.
    obtain ⟨t, ht, href⟩ := exists_spelling (parse_ok_iff.1 hparse)
    have hbare := (s.shown.tagged_iff.1 htag).1
    have hsegments : t.segments = s.shown.segments := congrArg Reference.segments href
    obtain ⟨body, hbody⟩ := htag
    have hshown : s.shown.text = "ref:" ++ String.ofList body :=
      String.toList_inj.1 (by simp [← hbody])
    rw [hshown, withoutTag_tagged, String.toList_ofList, t.text_toList, hsegments] at ht
    rw [s.shown.text_toList, hbare, ← ht] at hbody
    have hword : "ref:".toList.length = 4 := rfl
    have hnothing : Marker.bare.text.toList.length = 0 := rfl
    have hlength := congrArg List.length hbody
    simp only [List.length_append, hword, hnothing] at hlength
    omega
  · intro htag
    rw [parse_ok_iff, withoutTag_plain htag, ofChars?_text, s.reference_shown]

/-- A sibling by two dots is shown without them. Its text is read again if `ref:` stands in its second
segment, and not if it stands in its first. -/
theorem display_parse_iff_siblings :
    (parse "..a.ref:b" .root = .ok ⟨["a", "ref:b"], 1, .value⟩ ∧
      parse (display ⟨["a", "ref:b"], 1, .value⟩) .root = .ok ⟨["a", "ref:b"], 1, .value⟩) ∧
    (parse "..ref:b" .root = .ok ⟨["ref:b"], 1, .value⟩ ∧
      parse (display ⟨["ref:b"], 1, .value⟩) .root ≠ .ok ⟨["ref:b"], 1, .value⟩) := by
  have hsecond : parse "..a.ref:b" .root = .ok ⟨["a", "ref:b"], 1, .value⟩ := rfl
  have hfirst : parse "..ref:b" .root = .ok ⟨["ref:b"], 1, .value⟩ := rfl
  refine ⟨⟨hsecond, (display_parse_iff hsecond).2 ?_⟩, hfirst, fun h => ?_⟩
  · rintro ⟨-, -, first, rest, ⟨⟩, htag⟩
    exact absurd htag (by decide)
  · exact (display_parse_iff hfirst).1 h ⟨rfl, rfl, "ref:b", [], rfl, by decide⟩

end Reference

end Schemata
