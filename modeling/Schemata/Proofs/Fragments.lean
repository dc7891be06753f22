import Schemata.Proofs.CodeText
import Schemata.Proofs.Reached
import Schemata.Proofs.Reading
/-!
Generated fragments are self-contained.

Schemas begin with a name and go on with dots, names and brackets. All else that is generated stands
between brackets. The one text that a description can bring into the code as it is, is a pattern that
is a regular expression already. Without such patterns, and with the rules that are supported from
the start, every fragment can be put anywhere in code.

Component: the text of what the writer of nodes gives. Main results:
- `RuleForm.Makes.lexes` — what a rule becomes lexes, unless it is a pattern that is taken over;
- `write_lexes` — every node that is reached gives a schema that lexes;
- `write_selfContained` — so every fragment is self-contained.
-/

namespace Schemata

open Text (isOuter anywhere Lexes Passes)

namespace Code

/-! ## Code inherits its lexical structure -/

section Texts
variable {P : String → Prop}

theorem forall_texts {codes : List Code} (h : ∀ c ∈ codes, P c.text) : ∀ t ∈ texts codes, P t := by
  induction codes with
  | nil => simp [texts]
  | cons code rest ih =>
    rw [List.forall_mem_cons] at h
    exact List.forall_mem_cons.2 ⟨h.1, ih h.2⟩

theorem forall_namedTexts {fields : List (String × Code)} (h : ∀ f ∈ fields, P f.2.text) :
    ∀ t ∈ namedTexts fields, P t.2 := by
  induction fields with
  | nil => simp [namedTexts]
  | cons field rest ih =>
    rw [List.forall_mem_cons] at h
    exact List.forall_mem_cons.2 ⟨h.1, ih h.2⟩

theorem forall_caseTexts {cases : List (Code × Code)}
    (h : ∀ c ∈ cases, P c.1.text ∧ P c.2.text) : ∀ t ∈ caseTexts cases, P t.1 ∧ P t.2 := by
  induction cases with
  | nil => simp [caseTexts]
  | cons case rest ih =>
    rw [List.forall_mem_cons] at h
    exact List.forall_mem_cons.2 ⟨h.1, ih h.2⟩

end Texts

theorem isOuter_of_isDotted {text : String} (h : Text.isDotted text = true) :
    ∀ c ∈ text.toList, isOuter c = true := by
  intro c hc
  have hdotted := List.all_eq_true.1 h c hc
  simp only [isOuter, Bool.or_eq_true] at hdotted ⊢
  exact .inl hdotted

/-- A schema only has characters of names, dots and line breaks outside its brackets. -/
def LexesOuter (code : Code) : Prop := Lexes isOuter code.text

/-- The brackets of a piece of code match, and its strings end. -/
def LexesInner (code : Code) : Prop := Lexes anywhere code.text

theorem lexes_union {members : List Code} (hm : ∀ m ∈ members, LexesOuter m) :
    LexesOuter (Code.union members) := by
  refine union_cases (fun m h => hm m (by simp [h])) fun _ => ?_
  have hmembers : LexesInner (.array members) :=
    Text.lexes_array (forall_texts fun m hmem => (hm m hmem).weaken)
  exact Text.lexes_call (by decide) (forall_texts (List.forall_mem_singleton.2 hmembers))

/-- A method lexes if its name does, whatever schema has it. -/
theorem lexes_chain {target : Code} {m : String} {args : List Code} (ht : LexesOuter target)
    (hd : Text.isDotted m = true) (ha : ∀ a ∈ args, LexesInner a) :
    LexesOuter (.method target m args) :=
  Text.lexes_method (by decide) ht (Text.lexes_outer (isOuter_of_isDotted hd)) (forall_texts ha)

theorem lexes_chainAll {target : Code} {calls : List Call} (ht : LexesOuter target)
    (hc : ∀ c ∈ calls, Text.isDotted c.method = true ∧ ∀ a ∈ c.args, LexesInner a) :
    LexesOuter (target.chainAll calls) := by
  induction calls generalizing target with
  | nil => exact ht
  | cons c calls ih =>
    obtain ⟨hd, ha⟩ := hc c List.mem_cons_self
    exact ih (lexes_chain ht hd ha) fun c' hc' => hc c' (List.mem_cons_of_mem _ hc')

theorem lexes_sorted : Sorted LexesOuter LexesInner where
  ofSchema h := h.weaken
  raw h := by
    have hfixed : ∀ text ∈ fixedTexts, Lexes anywhere text := by decide
    exact hfixed _ h
  access := Text.lexes_accessChain
  string s := (Value.str s).source_lexes
  date ha := Text.lexes_call (by decide) (forall_texts fun _ hb => List.mem_singleton.1 hb ▸ ha)
  call hd _ ha := Text.lexes_call (Text.lexes_outer (isOuter_of_isDotted hd)) (forall_texts ha)
  method hm ht ha := by
    have hdotted : ∀ m ∈ genericMethods, Text.isDotted m = true := by decide
    exact lexes_chain ht (hdotted _ hm) ha
  policy hm ha := by
    have hdotted : ∀ m ∈ policies, Text.isDotted m = true := by decide
    refine lexes_chain ?_ (hdotted _ hm) (by simp)
    exact Text.lexes_call (by decide) (forall_texts (List.forall_mem_singleton.2 ha))
  union _ := lexes_union
  object h := Text.lexes_object (forall_namedTexts h)
  record h := Text.lexes_record (forall_namedTexts h)
  success {negated _} h := by
    have hnegation : Lexes anywhere (if negated then "!" else "") := by cases negated <;> decide
    exact (hnegation.append h).append (by decide)
  choice hc ho := Text.lexes_choice (by decide) (by decide) (forall_caseTexts hc) ho
  check h := Text.lexes_check _ h
  checks h := Text.lexes_checks (forall_texts h)
  literal v := v.source_lexes
  exclusion _ := Text.lexes_exclusion (List.forall_mem_map.2 fun v _ => v.source_lexes)
  emptyUnion := lexes_union (by simp)

end Code

/-! ## Rules -/

namespace RuleForm

/-- Whether the fixed texts of a form lex: its method, its regular expression or its predicate. -/
def hasLexicalTexts : RuleForm → Bool
  | .method name _ => Text.isDotted name
  | .format name => Text.isDotted name
  | .dateBound name => Text.isDotted name
  | .regex source => decide (Lexes anywhere source)
  | .refinement predicate _ arity =>
    match Text.template arity predicate with
    | .ok pieces => decide (Text.scanPieces (.code []) pieces = some (.code []))
    | .error _ => true
  | _ => true

theorem lexes_calls {name : String} {args : List Code} (hd : Text.isDotted name = true)
    (ha : ∀ a ∈ args, a.LexesInner) : ∀ c ∈ [(⟨name, args⟩ : Code.Call)],
      Text.isDotted c.method = true ∧ ∀ a ∈ c.args, a.LexesInner :=
  List.forall_mem_singleton.2 ⟨hd, ha⟩

theorem lexes_calls_one {name : String} {a : Code} (hd : Text.isDotted name = true)
    (ha : a.LexesInner) : ∀ c ∈ [(⟨name, [a]⟩ : Code.Call)],
      Text.isDotted c.method = true ∧ ∀ a ∈ c.args, a.LexesInner :=
  lexes_calls hd (List.forall_mem_singleton.2 ha)

/-- What a rule becomes lexes, unless it is a pattern that is taken over. -/
theorem Makes.lexes {rule : Rule} {form : RuleForm} {calls : List Code.Call}
    (h : Makes rule form calls) (hform : form.hasLexicalTexts = true)
    (hpattern : form = .pattern → ∀ source options, rule.args = .str source :: options →
      Text.isRegexLiteral source = false) :
    ∀ c ∈ calls, Text.isDotted c.method = true ∧ ∀ a ∈ c.args, a.LexesInner := by
  have hsorted := Code.lexes_sorted
  cases h with
  | method name arity args =>
    exact lexes_calls hform (List.forall_mem_map.2 fun v _ => hsorted.literal v)
  | format name => exact lexes_calls hform (by simp)
  | regex source =>
    have hsource : Lexes anywhere source := of_decide_eq_true hform
    exact lexes_calls_one (by decide) hsource
  | verbatim hargs hs =>
    rw [hpattern rfl _ _ hargs] at hs
    cases hs
  | quoted source =>
    refine lexes_calls_one (by decide) (Text.lexes_call (by decide) ?_)
    exact Code.forall_texts (List.forall_mem_singleton.2 (hsorted.literal _))
  | hexPairs =>
    have hsource : Lexes anywhere "/^(?:[a-f0-9]\x7b2\x7d)+$/i" := by decide
    exact lexes_calls_one (by decide) hsource
  | hexDigits =>
    have hsource : Lexes anywhere "/^[a-f0-9]+$/i" := by decide
    exact lexes_calls_one (by decide) hsource
  | untrimmed => simp
  | bare hname =>
    have hmethods : ∀ name ∈ ["trim", "toLowerCase", "toUpperCase", "ip", "positive", "negative"],
        Text.isDotted name = true := by decide
    exact lexes_calls (hmethods _ hname) (by simp)
  | version v => exact lexes_calls_one (by decide) (hsorted.record_one (hsorted.literal _))
  | port =>
    have hnumber : ∀ n, (Code.literal (.int n)).LexesInner := fun n => hsorted.literal _
    simp [hnumber, (by decide : Text.isDotted "int" = true),
      (by decide : Text.isDotted "min" = true), (by decide : Text.isDotted "max" = true)]
  | dateBound name date => exact lexes_calls_one hform (hsorted.date (hsorted.literal date))
  | refinement htemplate message wording args =>
    simp only [hasLexicalTexts, htemplate, decide_eq_true_eq] at hform
    refine lexes_calls (by decide) (List.forall_mem_cons.2 ⟨?_, List.forall_mem_singleton.2 ?_⟩)
    · exact Text.passes_filled (List.forall_mem_map.2 fun v _ => v.source_lexes) hform
    · exact hsorted.message wording

end RuleForm

namespace Rulebook

theorem builtin_lexical :
    ∀ entry ∈ builtin.entries, entry.emitter.all RuleForm.hasLexicalTexts = true := by
  decide +kernel

theorem builtin_patterns : ∀ entry ∈ builtin.entries,
    entry.emitter = some .pattern → entry.kind = .string ∧ entry.name = "pattern" := by
  decide +kernel

end Rulebook

/-! ## Patterns and names -/

/-- Whether a rule gives a pattern that is a regular expression already. -/
def Rule.isVerbatim (rule : Rule) : Bool :=
  rule.name == "pattern" &&
    match rule.args with
    | .str source :: _ => Text.isRegexLiteral source
    | _ => false

namespace Node

/-- Whether no pattern of a string is a regular expression already. -/
def quotesPatterns (n : Node) : Bool :=
  n.kind != .string || !n.rules.any Rule.isVerbatim

/-- The name of a node, if it has one, is an identifier. -/
def WellNamed (n : Node) : Prop := ∀ name, n.name = some name → Text.isIdentifier name = true

theorem readName_isIdentifier {raw : Value} {path : Path} {name : String}
    (h : readName raw path = .ok name) : Text.isIdentifier name = true := by
  unfold readName at h
  split at h
  · split at h <;> cases h
    assumption
  · cases h

theorem lastName_isIdentifier {metas : List (Entries × Path)} {given result : Option String}
    (hgiven : ∀ name, given = some name → Text.isIdentifier name = true)
    (h : lastName metas given = .ok result) :
    ∀ name, result = some name → Text.isIdentifier name = true := by
  induction metas generalizing given with
  | nil => cases h; exact hgiven
  | cons entry rest ih =>
    simp only [lastName] at h
    split at h
    · exact ih hgiven h
    · obtain ⟨name, hname, h⟩ := Outcome.bind_ok.1 h
      refine ih ?_ h
      rintro _ ⟨⟩
      exact readName_isIdentifier hname

/-- In a description that is read, all names are identifiers. -/
theorem read_wellNamed {limit : Int} {levels : Nat} {raw : Value} {path : Path} {n : Node}
    (h : read limit levels raw path = .ok n) : n.All WellNamed := by
  refine read_all (V := fun _ => True) (fun _ _ _ _ => trivial) (fun _ hn => ?_) (fun hn => ?_)
    trivial h
  · obtain ⟨metas, -, hname⟩ := hn.name
    exact lastName_isIdentifier (by simp) hname
  · cases hn <;> rintro name ⟨⟩

end Node

namespace Writing

variable {setting : Setting} {levels l : Nat} {root n : Node}

theorem wellNamed_guardBase {k base : Node} (h : guardBase k = some base) : base.WellNamed := by
  rw [guardBase_eq h]
  rintro name ⟨⟩

theorem wellNamed_merge {base branch m : Node} (h : base.merge branch = .ok m) : m.WellNamed := by
  rcases Node.merge_ok h with ⟨-, rfl⟩ | ⟨-, -, kind, -, rfl⟩ <;> rintro name ⟨⟩

theorem Reaches.wellNamed (hroot : root.All Node.WellNamed) (h : Reaches levels root l n) :
    n.All Node.WellNamed := by
  induction h with
  | root => exact hroot
  | step _ hm ih =>
    refine all_of_mem_children ?_ ?_ ih hm
    · exact fun _ _ hbase _ => wellNamed_guardBase hbase
    · exact fun _ _ _ hmerge _ _ _ => wellNamed_merge hmerge

/-! ## Nodes -/

theorem rulesKeep_lexes (hrules : setting.rules = .builtin) (hn : n.quotesPatterns = true) :
    RulesKeep Code.LexesOuter setting n := by
  intro target code _ ht hcode
  obtain ⟨calls, hcalls, rfl⟩ := applyRules_ok hcode
  refine Code.lexes_chainAll ht fun c hc => ?_
  obtain ⟨rule, hrule, form, group, hform, hmakes, hc⟩ := makes_of_mem_calls hcalls hc
  rw [hrules] at hform
  have hentry := Rulebook.mem_of_get? hform
  refine hmakes.lexes ?_ ?_ c hc
  · simpa using Rulebook.builtin_lexical _ hentry
  · intro hpattern source options hargs
    obtain ⟨hkind, hname⟩ := Rulebook.builtin_patterns _ hentry (congrArg some hpattern)
    dsimp only at hkind hname
    have hquoted : rule.isVerbatim = false := by
      simp only [Node.quotesPatterns, hkind, bne_self_eq_false, Bool.false_or, Bool.not_eq_true',
        List.any_eq_false, Bool.not_eq_true] at hn
      exact hn rule hrule
    simpa [Rule.isVerbatim, hname, hargs] using hquoted

theorem named_lexes (hn : n.WellNamed) {code : Code} (hc : code.LexesOuter) :
    growth.Holds Code.LexesOuter (named n code) := by
  refine ⟨fun p a q h => ⟨?_, ((named_growth n code).1 p a q h).2⟩, fun _ _ _ => trivial⟩
  cases hdeclared : n.declaredName? with
  | none =>
    simp only [named, hdeclared] at h
    cases h
    exact hc
  | some name =>
    simp only [named, hdeclared] at h
    obtain ⟨rfl, -⟩ := declare_ok h
    exact Text.lexes_identifier (hn name (Option.filter_eq_some_iff.1 hdeclared).1)

/-- Writing a node that is reached gives a schema that lexes. -/
theorem write_lexes (hrules : setting.rules = .builtin) (hroot : root.All Node.WellNamed)
    (hpatterns : ∀ l n, Reaches levels root l n → n.quotesPatterns = true)
    (hn : Reaches levels root l n) : growth.Holds Code.LexesOuter (write setting l n) := by
  induction l generalizing n with
  | zero => exact write_zero_holds trivial
  | succ l ih =>
    refine level_sorted Code.lexes_sorted (rulesKeep_lexes hrules (hpatterns _ n hn)) ?_ ?_ ?_
    · exact fun _ _ => growth_allows setting n
    · exact fun m hm => ih (hn.step hm)
    · exact fun code hcode => named_lexes (hn.wellNamed hroot).self hcode

/-- Every fragment that is written for a description, for a node or for a property, is
self-contained, and what stands before and behind it is read as if it were not there. -/
theorem write_selfContained {raw : Value} (hrules : setting.rules = .builtin)
    (hread : Node.ofValue setting.options.maxDepth raw = .ok root)
    (hpatterns : ∀ l n, Reaches setting.options.maxDepth root l n → n.quotesPatterns = true)
    (hn : Reaches setting.options.maxDepth root l n) (p q : Progress) (code : Code)
    (hcode : write setting l n p = .ok (code, q) ∨
      field setting (write setting l) n p = .ok (code, q)) :
    Text.SelfContained code.text ∧
      ∀ before after brackets stop, Passes isOuter (.code []) before (.code brackets) →
        (Passes isOuter (.code []) (before ++ code.text ++ after) stop ↔
          Passes isOuter (.code []) (before ++ after) stop) := by
  have hwrite := write_lexes hrules (Node.read_wellNamed hread) hpatterns hn
  have hlexes : code.LexesOuter := by
    rcases hcode with hcode | hcode
    · exact (hwrite.1 p code q hcode).1
    · exact ((field_holds Code.lexes_sorted hwrite).1 p code q hcode).1
  exact ⟨hlexes.selfContained, fun _ _ _ _ hbefore => hlexes.selfContained.between hbefore⟩

/-- An object with a conditional property: its name and its pattern hold quotes and brackets, and its
branch has a name. -/
theorem write_selfContained_conditional :
    let raw : Value := .map [(.str "type", .str "object"), (.str "keys", .map
      [(.str "\"(", .map [(.str "type", .str "string"),
        (.str "rules", .list [.map [(.str "name", .str "pattern"), (.str "args", .list [.str "[\""])]]),
        (.str "whens", .list [.map [(.str "ref", .str "b"),
          (.str "is", .map [(.str "type", .str "number")]),
          (.str "then", .map [(.str "type", .str "string"),
            (.str "metas", .list [.map [(.str "className", .str "Name")]])])]])])])]
    let path := (((Path.root.key "keys").key "\"(").key "whens").index 0
    let property : Node :=
      { kind := .string
        rules := [⟨"pattern", [.str "[\""]⟩]
        guards := [{ reference := { segments := ["b"] }
                     cases := [{ condition := { kind := .number, path := path.key "is" }
                                 branch := some { kind := .string, name := some "Name"
                                                  path := path.key "then" } }]
                     otherwise := none
                     path := path }]
        path := (Path.root.key "keys").key "\"(" }
    let root : Node := { kind := .object, keys := some [("\"(", property)] }
    let setting : Setting := ⟨{ maxDepth := 3 }, .builtin⟩
    Node.ofValue (3 : Nat) raw = .ok root ∧
      ∃ code q, write setting 3 root {} = .ok (code, q) ∧ Text.SelfContained code.text := by
  intro raw path property root setting
  have hread : Node.ofValue (3 : Nat) raw = .ok root := rfl
  refine ⟨hread, ?code, ?q, ?hwrite, (@write_selfContained setting 3 root root raw rfl hread ?_ .root
    {} ?q ?code (.inl ?hwrite)).1⟩
  case hwrite => rfl
  -- The nodes below the root have no nodes below them.
  have hleaves : ∀ m ∈ children root, (children m).isEmpty = true := by decide
  have hquoted : ∀ m ∈ root :: children root, m.quotesPatterns = true := by decide
  have hreached : ∀ l n, Reaches 3 root l n → n ∈ root :: children root := by
    intro l n h
    induction h with
    | root => exact List.mem_cons_self
    | step _ hm ih =>
      rcases List.mem_cons.1 ih with rfl | ih
      · exact List.mem_cons_of_mem _ hm
      · rw [List.isEmpty_iff.1 (hleaves _ ih)] at hm
        cases hm
  exact fun l n h => hquoted n (hreached l n h)

end Writing

end Schemata
