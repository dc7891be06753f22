import Schemata.Proofs.Outcome
import Schemata.Rule.Form
/-!
Regular expressions that are taken over as they are.

A pattern between two slashes is written into the code without quotes. `RegexToken` is the grammar of
such a literal, and `readRegex` reads one from the start of a text the way a reader of the code does,
up to the first slash that is neither escaped nor inside a class. A pattern that is no literal is cut
short by that reader, or is none at all to it: `readsAsToken_iff`.

Component: the rule for patterns, `RuleForm.pattern`. Main results:
- `readsAsToken_iff` — when a text between slashes is one token;
- `pattern_argument` — what the pattern of a rule becomes, and when that is read as the pattern.
-/

namespace Schemata

namespace Text

/-! ## The grammar -/

/-- The characters that end a line of code. -/
def lineEnds : List Char := ['\n', '\r', '\u2028', '\u2029']

/-- What may stand between the brackets of a class of characters. -/
inductive ClassBody : List Char → Prop where
  | nil : ClassBody []
  | plain {c : Char} {cs : List Char} (hline : c ∉ lineEnds) (hspecial : c ∉ [']', '\\'])
    (h : ClassBody cs) : ClassBody (c :: cs)
  | escaped {c : Char} {cs : List Char} (hline : c ∉ lineEnds) (h : ClassBody cs) :
    ClassBody ('\\' :: c :: cs)

/-- What may stand between the slashes: a slash only behind a backslash or inside a class. -/
inductive RegexBody : List Char → Prop where
  | nil : RegexBody []
  | plain {c : Char} {cs : List Char} (hline : c ∉ lineEnds) (hspecial : c ∉ ['/', '\\', '['])
    (h : RegexBody cs) : RegexBody (c :: cs)
  | escaped {c : Char} {cs : List Char} (hline : c ∉ lineEnds) (h : RegexBody cs) :
    RegexBody ('\\' :: c :: cs)
  | bracketed {members cs : List Char} (hmembers : ClassBody members) (h : RegexBody cs) :
    RegexBody ('[' :: members ++ ']' :: cs)

/-- A regular expression as a literal: two slashes around a body that is no comment, and flags. -/
def RegexToken (token : List Char) : Prop :=
  ∃ body flags, token = '/' :: body ++ '/' :: flags ∧ RegexBody body ∧ body ≠ [] ∧
    body.head? ≠ some '*' ∧ ∀ c ∈ flags, c ∈ regexFlags

/-- Two slashes with anything between them, flags, and perhaps a line break. -/
def Slashed (source : List Char) : Prop :=
  ∃ body flags ending, source = '/' :: body ++ '/' :: (flags ++ ending) ∧
    (∀ c ∈ flags, c ∈ regexFlags) ∧ (ending = [] ∨ ending = ['\n'])

/-! ## The reader -/

/-- Whether a reader is inside a class behind a character that is not escaped. -/
def staysInside (inside : Bool) (c : Char) : Bool := (inside || c == '[') && c != ']'

/-- Reads up to the slash that ends a regular expression: what stands before it and what behind it. -/
def readBody : Bool → List Char → Option (List Char × List Char)
  | _, [] => none
  | inside, '\\' :: c :: rest =>
    if c ∈ lineEnds then none
    else (readBody inside rest).map fun (body, rest) => ('\\' :: c :: body, rest)
  | inside, c :: rest =>
    if c ∈ lineEnds ∨ c = '\\' then none
    else if c = '/' ∧ inside = false then some ([], rest)
    else (readBody (staysInside inside c) rest).map fun (body, rest) => (c :: body, rest)

/-- Reads a regular expression from the start of a text: the literal and the rest. -/
def readRegex : List Char → Option (List Char × List Char)
  | '/' :: text =>
    if text.head? = some '*' then none
    else
      match readBody false text with
      | some (c :: body, rest) =>
        some ('/' :: c :: body ++ '/' :: rest.takeWhile continuesIdentifier,
          rest.dropWhile continuesIdentifier)
      | _ => none
  | _ => none

/-- As the argument of a call, a text is one regular expression up to the bracket behind it. -/
def ReadsAsToken (text : List Char) : Prop :=
  ∀ rest, readRegex (text ++ ')' :: rest) = some (text, ')' :: rest)

/-! ## The reader follows the grammar -/

section Reading
variable {inside : Bool} {c : Char}

theorem readBody_escaped (hline : c ∉ lineEnds) (cs : List Char) :
    readBody inside ('\\' :: c :: cs) =
      (readBody inside cs).map fun (body, rest) => ('\\' :: c :: body, rest) := by
  rw [readBody, if_neg hline]

theorem readBody_slash (cs : List Char) : readBody false ('/' :: cs) = some ([], cs) := by
  simp [readBody, lineEnds]

theorem readBody_cons (hline : c ∉ lineEnds) (hescape : c ≠ '\\')
    (hslash : ¬ (c = '/' ∧ inside = false)) (cs : List Char) :
    readBody inside (c :: cs) =
      (readBody (staysInside inside c) cs).map fun (body, rest) => (c :: body, rest) := by
  rw [readBody, if_neg (by simp [hline, hescape]), if_neg hslash]
  intro d rest heq
  exact absurd heq hescape

end Reading

/-- What a reader can still read before the last slash, inside a class or not. -/
def BodyFrom (inside : Bool) (cs : List Char) : Prop :=
  if inside then
    ∃ members rest, cs = members ++ ']' :: rest ∧ ClassBody members ∧ RegexBody rest
  else RegexBody cs

theorem bodyFrom_escaped {inside : Bool} {c : Char} {cs : List Char} (hline : c ∉ lineEnds)
    (h : BodyFrom inside cs) : BodyFrom inside ('\\' :: c :: cs) := by
  cases inside with
  | false => exact .escaped hline h
  | true =>
    obtain ⟨members, rest, rfl, hmembers, hrest⟩ := h
    exact ⟨'\\' :: c :: members, rest, rfl, .escaped hline hmembers, hrest⟩

theorem bodyFrom_cons {inside : Bool} {c : Char} {cs : List Char} (hline : c ∉ lineEnds)
    (hescape : c ≠ '\\') (hslash : ¬ (c = '/' ∧ inside = false))
    (h : BodyFrom (staysInside inside c) cs) : BodyFrom inside (c :: cs) := by
  cases inside with
  | false =>
    by_cases hopen : c = '['
    · subst hopen
      obtain ⟨members, rest, rfl, hmembers, hrest⟩ := h
      exact .bracketed hmembers hrest
    · have houtside : staysInside false c = false := by simp [staysInside, hopen]
      rw [houtside] at h
      exact .plain hline (by simp_all) h
  | true =>
    by_cases hclose : c = ']'
    · subst hclose
      exact ⟨[], cs, rfl, .nil, h⟩
    · have hinside : staysInside true c = true := by simp [staysInside, hclose]
      rw [hinside] at h
      obtain ⟨members, rest, rfl, hmembers, hrest⟩ := h
      exact ⟨c :: members, rest, rfl, .plain hline (by simp [hclose, hescape]) hmembers, hrest⟩

theorem readBody_sound {inside : Bool} {cs body rest : List Char}
    (h : readBody inside cs = some (body, rest)) :
    BodyFrom inside body ∧ cs = body ++ '/' :: rest := by
  fun_induction readBody inside cs generalizing body with
  | case1 => cases h
  | case2 => cases h
  | case3 inside c cs hline ih =>
    obtain ⟨⟨inner, rest'⟩, hread, heq⟩ := Option.map_eq_some_iff.1 h
    cases heq
    obtain ⟨hinner, rfl⟩ := ih hread
    exact ⟨bodyFrom_escaped hline hinner, rfl⟩
  | case4 => cases h
  | case5 inside c cs hspecial hline hslash =>
    obtain ⟨rfl, rfl⟩ := hslash
    cases h
    exact ⟨.nil, rfl⟩
  | case6 inside c cs hspecial hline hslash ih =>
    obtain ⟨⟨inner, rest'⟩, hread, heq⟩ := Option.map_eq_some_iff.1 h
    cases heq
    obtain ⟨hinner, rfl⟩ := ih hread
    rw [not_or] at hline
    exact ⟨bodyFrom_cons hline.1 hline.2 hslash hinner, rfl⟩

theorem readBody_class {members : List Char} (h : ClassBody members) (cs : List Char) :
    readBody true (members ++ ']' :: cs) =
      (readBody false cs).map fun (body, rest) => (members ++ ']' :: body, rest) := by
  induction h with
  | nil => exact readBody_cons (by decide) (by decide) (by decide) cs
  | @plain c members hline hspecial _ ih =>
    simp only [List.mem_cons, List.not_mem_nil, or_false, not_or] at hspecial
    have hinside : staysInside true c = true := by simp [staysInside, hspecial.1]
    rw [List.cons_append, readBody_cons hline hspecial.2 (by simp), hinside, ih, Option.map_map]
    rfl
  | escaped hline _ ih =>
    rw [List.cons_append, List.cons_append, readBody_escaped hline, ih, Option.map_map]
    rfl

theorem readBody_complete {body : List Char} (h : RegexBody body) (rest : List Char) :
    readBody false (body ++ '/' :: rest) = some (body, rest) := by
  induction h with
  | nil => exact readBody_slash rest
  | @plain c body hline hspecial _ ih =>
    simp only [List.mem_cons, List.not_mem_nil, or_false, not_or] at hspecial
    have houtside : staysInside false c = false := by simp [staysInside, hspecial.2.2]
    rw [List.cons_append, readBody_cons hline hspecial.2.1 (by simp [hspecial.1]), houtside, ih]
    rfl
  | escaped hline _ ih =>
    rw [List.cons_append, List.cons_append, readBody_escaped hline, ih]
    rfl
  | @bracketed members body hmembers _ ih =>
    rw [List.append_assoc, List.cons_append, List.cons_append,
      readBody_cons (by decide) (by decide) (by decide)]
    change (readBody true _).map _ = _
    rw [readBody_class hmembers, ih]
    rfl

theorem regexFlags_continue : ∀ c ∈ regexFlags, continuesIdentifier c = true :=
  List.all_eq_true.1 (by decide)

theorem RegexToken.readsAsToken {token : List Char} (h : RegexToken token) : ReadsAsToken token := by
  obtain ⟨body, flags, rfl, hbody, hne, hstar, hflags⟩ := h
  intro rest
  obtain ⟨c, body, rfl⟩ := List.exists_cons_of_ne_nil hne
  have hletters : ∀ c ∈ flags, continuesIdentifier c = true :=
    fun c hc => regexFlags_continue c (hflags c hc)
  have hbracket : continuesIdentifier ')' = false := by decide
  have hread := readBody_complete hbody (flags ++ ')' :: rest)
  have hcomment : c ≠ '*' := by simpa using hstar
  simp only [List.cons_append] at hread
  simp [readRegex, hread, hcomment, List.takeWhile_append_of_pos hletters,
    List.dropWhile_append_of_pos hletters, hbracket]

theorem readRegex_sound {text token rest : List Char} (h : readRegex text = some (token, rest)) :
    ∃ body flags, token = '/' :: body ++ '/' :: flags ∧ RegexBody body ∧ body ≠ [] ∧
      body.head? ≠ some '*' ∧ ∀ c ∈ flags, continuesIdentifier c = true := by
  unfold readRegex at h
  split at h
  · split at h
    · cases h
    · rename_i hstar
      split at h
      · rename_i c body after hread
        cases h
        obtain ⟨hbody, rfl⟩ := readBody_sound hread
        refine ⟨c :: body, _, rfl, hbody, by simp, by simpa using hstar, fun d hd => ?_⟩
        exact List.all_eq_true.1 List.all_takeWhile d hd
      · cases h
  · cases h

/-- What stands behind the last slash of a text. -/
theorem eq_of_lastSlash {a b x y : List Char} (h : a ++ '/' :: x = b ++ '/' :: y) (hx : '/' ∉ x)
    (hy : '/' ∉ y) : x = y := by
  rcases List.append_eq_append_iff.1 h with ⟨_ | ⟨d, between⟩, -, heq⟩ | ⟨_ | ⟨d, between⟩, -, heq⟩
  · simpa using heq
  · cases heq
    exact absurd (by simp) hx
  · simpa using heq.symm
  · cases heq
    exact absurd (by simp) hy

/-- A text between slashes is one token in the code exactly if it is a literal by the grammar. -/
theorem readsAsToken_iff {source : List Char} (hsource : Slashed source) :
    ReadsAsToken source ↔ RegexToken source := by
  refine ⟨fun h => ?_, RegexToken.readsAsToken⟩
  obtain ⟨body, flags, heq, hbody, hne, hstar, hletters⟩ := readRegex_sound (h [])
  refine ⟨body, flags, heq, hbody, hne, hstar, ?_⟩
  -- The flags that are read are what stands behind the last slash, line break included.
  obtain ⟨body', flags', ending, heq', hflags', hending⟩ := hsource
  have hslash : '/' ∉ flags := fun hmem => absurd (hletters _ hmem) (by decide)
  have hslash' : '/' ∉ flags' ++ ending := by
    have hflag : '/' ∉ flags' := fun hmem => absurd (hflags' _ hmem) (by decide)
    rcases hending with rfl | rfl <;> simp [hflag]
  have hsame : flags = flags' ++ ending := eq_of_lastSlash (heq.symm.trans heq') hslash hslash'
  rcases hending with rfl | rfl
  · simpa [hsame] using hflags'
  · have hbreak := hletters '\n' (by simp [hsame])
    exact absurd hbreak (by decide)

/-! ## Which patterns are taken over -/

theorem withoutLineBreak_cases (cs : List Char) :
    cs = withoutLineBreak cs ∨ cs = withoutLineBreak cs ++ ['\n'] := by
  unfold withoutLineBreak
  split
  · rename_i rest hreverse
    right
    simpa using congrArg List.reverse hreverse
  · exact .inl rfl

theorem withoutLineBreak_lineBreak (cs : List Char) : withoutLineBreak (cs ++ ['\n']) = cs := by
  simp [withoutLineBreak]

theorem withoutLineBreak_flags {before flags : List Char} (h : ∀ c ∈ flags, c ∈ regexFlags) :
    withoutLineBreak (before ++ '/' :: flags) = before ++ '/' :: flags := by
  unfold withoutLineBreak
  split
  · rename_i rest hreverse
    -- The last character is a flag or the slash.
    have hmem : '\n' ∈ '/' :: flags := by
      rw [List.reverse_append, List.reverse_cons] at hreverse
      rcases hlast : flags.reverse with _ | ⟨c, others⟩
      · simp [hlast] at hreverse
      · have hc : c ∈ flags := List.mem_reverse.1 (hlast ▸ List.mem_cons_self)
        rw [hlast] at hreverse
        cases hreverse
        exact List.mem_cons_of_mem _ hc
    rcases List.mem_cons.1 hmem with hslash | hflag
    · exact absurd hslash (by decide)
    · exact absurd (h _ hflag) (by decide)
  · rfl

/-- Flags are dropped from the end up to a slash. -/
theorem dropWhile_flags_iff {cs : List Char} :
    (∃ before, cs.reverse.dropWhile regexFlags.contains = '/' :: before) ↔
      ∃ body flags, cs = body ++ '/' :: flags ∧ ∀ c ∈ flags, c ∈ regexFlags := by
  constructor
  · rintro ⟨before, hdrop⟩
    refine ⟨before.reverse, (cs.reverse.takeWhile regexFlags.contains).reverse, ?_, ?_⟩
    · have hsplit := List.takeWhile_append_dropWhile (p := regexFlags.contains) (l := cs.reverse)
      rw [hdrop] at hsplit
      simpa using (congrArg List.reverse hsplit).symm
    · intro c hc
      have hall := List.all_eq_true.1 List.all_takeWhile c (List.mem_reverse.1 hc)
      simpa using hall
  · rintro ⟨body, flags, rfl, hflags⟩
    have hall : ∀ c ∈ flags.reverse, regexFlags.contains c = true := by simpa using hflags
    refine ⟨body.reverse, ?_⟩
    rw [List.reverse_append, List.reverse_cons, List.append_assoc,
      List.dropWhile_append_of_pos hall]
    exact List.dropWhile_cons_of_neg (by decide)

theorem isRegexLiteral_iff {source : String} :
    isRegexLiteral source = true ↔ Slashed source.toList := by
  have hopened : isRegexLiteral source = true ↔ ∃ rest,
      withoutLineBreak source.toList = '/' :: rest ∧
      ∃ before, rest.reverse.dropWhile regexFlags.contains = '/' :: before := by
    unfold isRegexLiteral
    split
    · split <;> simp_all
    · simp_all
  simp only [hopened, dropWhile_flags_iff]
  constructor
  · rintro ⟨rest, hrest, body, flags, rfl, hflags⟩
    rcases withoutLineBreak_cases source.toList with hcs | hcs
    · exact ⟨body, flags, [], by rw [hcs, hrest]; simp, hflags, .inl rfl⟩
    · exact ⟨body, flags, ['\n'], by rw [hcs, hrest]; simp, hflags, .inr rfl⟩
  · rintro ⟨body, flags, ending, heq, hflags, rfl | rfl⟩
    · refine ⟨body ++ '/' :: flags, ?_, body, flags, rfl, hflags⟩
      rw [heq, List.append_nil]
      exact withoutLineBreak_flags hflags
    · refine ⟨body ++ '/' :: flags, ?_, body, flags, rfl, hflags⟩
      have hsnoc : '/' :: body ++ '/' :: (flags ++ ['\n']) = ('/' :: body ++ '/' :: flags) ++ ['\n'] := by
        simp
      rw [heq, hsnoc, withoutLineBreak_lineBreak]
      rfl

end Text

namespace RuleForm

open Text

theorem emit_pattern {rule : Rule} {source : String} {options : List Value}
    (hargs : rule.args = .str source :: options)
    (hinvert : (Rule.optionOf (options.head?.getD .null) "invert").truthy = false) (target : Code)
    (site : RuleSite) :
    RuleForm.pattern.emit target rule site = .ok (target.chain ⟨"regex", [if isRegexLiteral source then
      .raw source .call else .call "new RegExp" [.literal (.str source)]]⟩) := by
  simp only [emit, emitPattern, patternArgument, hargs, hinvert, Bool.false_eq_true, if_false]
  cases isRegexLiteral source <;> rfl

theorem slashed_ne_call {source : String} (h : Slashed source.toList) (rest : String) :
    source ≠ "new RegExp(" ++ rest := by
  rintro rfl
  obtain ⟨body, flags, ending, heq, -⟩ := h
  simp at heq

/-- The pattern of a rule that is not inverted becomes the argument of one call: quoted, or taken over if
it stands between slashes. The argument is the quoted pattern or one literal to a reader of the code
exactly if the pattern is a literal by the grammar whenever it stands between slashes. -/
theorem pattern_argument (rule : Rule) (site : RuleSite) (source : String) (options : List Value)
    (hargs : rule.args = .str source :: options)
    (hinvert : (Rule.optionOf (options.head?.getD .null) "invert").truthy = false) :
    ∃ argument : Code, (∀ target, RuleForm.pattern.emit target rule site =
        .ok (target.chain ⟨"regex", [argument]⟩)) ∧
      (¬ Slashed source.toList → argument.text = "new RegExp(" ++ quoted source ++ ")") ∧
      (Slashed source.toList → argument.text = source) ∧
      (argument.text = "new RegExp(" ++ quoted source ++ ")" ∨ ReadsAsToken argument.text.toList ↔
        (Slashed source.toList → RegexToken source.toList)) := by
  refine ⟨_, fun target => emit_pattern hargs hinvert target site, ?_⟩
  by_cases hslashed : Slashed source.toList
  · have hverbatim : isRegexLiteral source = true := isRegexLiteral_iff.2 hslashed
    have hcall : source ≠ "new RegExp(" ++ quoted source ++ ")" := by
      rw [String.append_assoc]
      exact slashed_ne_call hslashed _
    simp [hverbatim, hslashed, Code.text, hcall, readsAsToken_iff hslashed]
  · have hquoted : isRegexLiteral source = false := by
      rw [← Bool.not_eq_true, isRegexLiteral_iff]
      exact hslashed
    have htext : (Code.call "new RegExp" [.literal (.str source)]).text =
        "new RegExp(" ++ quoted source ++ ")" := rfl
    simp [hquoted, hslashed, htext]

/-- A slash inside a class and one behind a backslash do not end a literal. -/
theorem pattern_argument_slashes :
    let rule : Rule := ⟨"pattern", [.str "/[/]\\/a/gi"]⟩
    ∃ argument : Code, (∀ target, RuleForm.pattern.emit target rule ⟨.string, .root, true⟩ =
        .ok (target.chain ⟨"regex", [argument]⟩)) ∧
      (argument.text = "new RegExp(\"/[/]\\\\/a/gi\")" ∨ ReadsAsToken argument.text.toList) := by
  intro rule
  obtain ⟨argument, hemit, -, -, htoken⟩ :=
    pattern_argument rule ⟨.string, .root, true⟩ "/[/]\\/a/gi" [] rfl (by decide)
  refine ⟨argument, hemit, htoken.2 fun _ => ?_⟩
  have hclass : ClassBody ['/'] := .plain (by decide) (by decide) .nil
  have hrest : RegexBody ['\\', '/', 'a'] :=
    .escaped (by decide) (.plain (by decide) (by decide) .nil)
  exact ⟨['[', '/', ']', '\\', '/', 'a'], ['g', 'i'], rfl, .bracketed hclass hrest, by decide,
    by decide, by simp [regexFlags]⟩

/-- Two patterns that are taken over and are no literals: the first is the start of a comment, and the
second ends early and goes on with code of its own. -/
theorem pattern_not_token :
    let site : RuleSite := ⟨.string, .root, true⟩
    (∀ target, RuleForm.pattern.emit target ⟨"pattern", [.str "//"]⟩ site =
        .ok (target.chain ⟨"regex", [.raw "//" .call]⟩)) ∧
      readRegex "//)".toList = none ∧
      (∀ target, RuleForm.pattern.emit target ⟨"pattern", [.str "/a/, f(), /b/"]⟩ site =
        .ok (target.chain ⟨"regex", [.raw "/a/, f(), /b/" .call]⟩)) ∧
      readRegex "/a/, f(), /b/)".toList = some ("/a/".toList, ", f(), /b/)".toList) :=
  ⟨fun _ => rfl, by decide, fun _ => rfl, by decide⟩

end RuleForm

end Schemata
