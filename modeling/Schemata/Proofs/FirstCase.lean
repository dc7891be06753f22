import Schemata.Proofs.Cutting
import Schemata.Proofs.Fragments
import Schemata.Proofs.Shown
import Schemata.Proofs.Slots
/-!
A conditional selects the branch of the first case whose test holds.

The statement of a conditional is flat text: tests and branches with `?` and `:` between them, and no
parentheses. That it is read in the intended way rests on the texts of tests and branches, which hold
question marks, colons and commas between brackets and in strings only. So the argument that is
checked can be cut out of the statement, it can be cut into the tests and the branches, and these make
up a single expression.

Component: the writer of conditional properties, `Writing.guardedField`. Main results:
- `cut_choiceText` — a choice is cut into its tests and branches;
- `statement_readFrom` — a choice can be read from its statement;
- `property_selects_first` — every statement that is written selects the branch of the first test
  that holds.
-/

namespace Schemata

open Text (isOuter Lexes)

namespace Text

/-- The characters outside the brackets of tests and branches: those of schemas, and the mark of a
negation. -/
def isOperand (c : Char) : Bool := isOuter c || c == '!'

/-- The characters outside the brackets of an argument: those of tests and branches, of the marks
between them, and quotes. -/
def isArgument (c : Char) : Bool := isOperand c || [' ', '?', ':', '"'].contains c

theorem Lexes.operand {text : String} (h : Lexes isOuter text) : Lexes isOperand text :=
  h.passes (.inr fun c hc => by simp [isOperand, hc])

theorem Lexes.argument {text : String} (h : Lexes isOperand text) : Lexes isArgument text :=
  h.passes (.inr fun c hc => by simp [isArgument, hc])

theorem separates_choice : Separates isOperand [" ? ", " : "] := ⟨by decide, by decide⟩

theorem separates_arguments : Separates isArgument [", "] := ⟨by decide, by decide⟩

/-- The arguments of a statement that checks a property. -/
theorem cut_arguments (name : String) {schema : String} (h : Lexes isArgument schema) :
    cut [", "] (quoted name ++ ", " ++ schema) = some ⟨quoted name, [(", ", schema)]⟩ := by
  have htext : Cut.text ⟨quoted name, [(", ", schema)]⟩ = quoted name ++ ", " ++ schema := by
    simp [Cut.text, concat, String.append_assoc]
  rw [← htext]
  exact cut_text separates_arguments (lexes_quoted name rfl) (by simpa using h)

end Text

namespace Expression

open Text (isOperand)

theorem chainCut_pieces {P : String → Prop} {cases : List (String × String)} {otherwise : String}
    (hc : ∀ c ∈ cases, P c.1 ∧ P c.2) (ho : P otherwise) :
    P (chainCut cases otherwise).first ∧
      ∀ piece ∈ (chainCut cases otherwise).rest, piece.1 ∈ [" ? ", " : "] ∧ P piece.2 := by
  induction cases with
  | nil => exact ⟨ho, by simp [chainCut]⟩
  | cons case rest ih =>
    rw [List.forall_mem_cons] at hc
    obtain ⟨hfirst, hrest⟩ := ih hc.2
    refine ⟨hc.1.1, List.forall_mem_cons.2 ⟨⟨by simp, hc.1.2⟩, ?_⟩⟩
    exact List.forall_mem_cons.2 ⟨⟨by simp, hfirst⟩, hrest⟩

/-- A choice is cut into its tests and branches. -/
theorem cut_choiceText {cases : List (String × String)} {otherwise : String}
    (hc : ∀ c ∈ cases, Lexes isOperand c.1 ∧ Lexes isOperand c.2) (ho : Lexes isOperand otherwise) :
    Text.cut [" ? ", " : "] (Text.choiceText cases otherwise) = some (chainCut cases otherwise) := by
  obtain ⟨hfirst, hrest⟩ := chainCut_pieces hc ho
  rw [← text_chainCut]
  exact Text.cut_text Text.separates_choice hfirst hrest

end Expression

theorem Code.caseTexts_eq_map (cases : List (Code × Code)) :
    caseTexts cases = cases.map fun case => (case.1.text, case.2.text) := by
  induction cases with
  | nil => rfl
  | cons case rest ih => rw [caseTexts, ih, List.map_cons]

namespace Writing

/-! ## Statements -/

namespace Choice

/-- The texts of the tests and the branches of a choice. -/
def caseTexts (choice : Choice) : List (String × String) :=
  (choice.tests.zip choice.branches).map fun case => (case.1.text, case.2.text)

theorem text_statement (choice : Choice) (name : String) : (choice.statement name).text =
    "check(" ++ (Text.quoted name ++ ", "
      ++ Text.choiceText choice.caseTexts choice.otherwise.text) ++ ");" := by
  rw [statement, Code.text, Code.text, Text.checkText, Code.caseTexts_eq_map, caseTexts]
  simp only [String.append_assoc]

theorem branches_caseTexts {choice : Choice}
    (hlength : choice.tests.length = choice.branches.length) :
    choice.caseTexts.map Prod.snd = choice.branches.map Code.text := by
  have hsecond : choice.caseTexts.map Prod.snd =
      ((choice.tests.zip choice.branches).map Prod.snd).map Code.text := by
    simp [caseTexts]
  rw [hsecond, List.map_snd_zip (Nat.le_of_eq hlength.symm)]

/-- How the text of a statement is read. It has two arguments, the name of a property and a text that
can be cut into the tests and the branches of a choice, in the order of the cases. These make up one
expression, and whatever the tests say it selects the branch of the first test that is true, or the
last branch if none is. -/
structure ReadFrom (choice : Choice) (name text schema : String) (cut : Text.Cut)
    (expression : Expression) : Prop where
  arguments : ∃ arguments, text = "check(" ++ arguments ++ ");" ∧
    Text.cut [", "] arguments = some ⟨Text.quoted name, [(", ", schema)]⟩
  operands : Text.cut [" ? ", " : "] schema = some cut
  pieces : cut.pieces = (choice.tests.zip choice.branches).flatMap
    (fun case => [case.1.text, case.2.text]) ++ [choice.otherwise.text]
  marks : cut.marks = (choice.tests.zip choice.branches).flatMap fun _ => [" ? ", " : "]
  derives : ∀ e : Expression, e.Derives cut ↔ e = expression
  first : ∀ (truth : Nat → Bool) (i : Nat) (branch : Code), choice.branches[i]? = some branch →
    truth i = true → (∀ j < i, truth j = false) → expression.select truth = branch.text
  none : ∀ truth : Nat → Bool, (∀ i < choice.branches.length, truth i = false) →
    expression.select truth = choice.otherwise.text

/-- A choice can be read from its statement if its tests and branches are operands. -/
theorem statement_readFrom {choice : Choice} (name : String)
    (hlength : choice.tests.length = choice.branches.length)
    (htests : ∀ t ∈ choice.tests, Lexes Text.isOperand t.text)
    (hfragments : ∀ b ∈ choice.fragments, Lexes Text.isOperand b.text) :
    choice.ReadFrom name (choice.statement name).text
      (Text.choiceText choice.caseTexts choice.otherwise.text)
      (Expression.chainCut choice.caseTexts choice.otherwise.text)
      (Expression.chain choice.caseTexts choice.otherwise.text) := by
  have hcases : ∀ case ∈ choice.caseTexts,
      Lexes Text.isOperand case.1 ∧ Lexes Text.isOperand case.2 := by
    refine List.forall_mem_map.2 fun ⟨test, branch⟩ hcase => ?_
    obtain ⟨htest, hbranch⟩ := List.of_mem_zip hcase
    exact ⟨htests test htest, hfragments branch (List.mem_append_left _ hbranch)⟩
  have hotherwise : Lexes Text.isOperand choice.otherwise.text :=
    hfragments _ (List.mem_append_right _ (List.mem_singleton_self _))
  -- The chain is one reading of the pieces, and there is no other.
  have hderives := Expression.derives_chain choice.caseTexts choice.otherwise.text
  have hselect : ∀ truth, (Expression.chain choice.caseTexts choice.otherwise.text).select truth =
      pick truth (choice.branches.map Code.text) choice.otherwise.text := by
    intro truth
    rw [Expression.select_chain, branches_caseTexts hlength]
  constructor
  case arguments =>
    refine ⟨_, choice.text_statement name, Text.cut_arguments name ?_⟩
    apply Text.lexes_choice (by decide) (by decide) _ hotherwise.argument
    exact fun c hc => ⟨(hcases c hc).1.argument, (hcases c hc).2.argument⟩
  case operands => exact Expression.cut_choiceText hcases hotherwise
  case pieces => rw [Expression.pieces_chainCut, caseTexts, List.flatMap_map]
  case marks => rw [Expression.marks_chainCut, caseTexts, List.flatMap_map]
  case derives => exact fun e => ⟨fun h => h.unique hderives, fun h => h ▸ hderives⟩
  case first =>
    intro truth i branch hbranch htrue hfalse
    rw [hselect]
    exact pick_first (by rw [List.getElem?_map, hbranch]; rfl) htrue hfalse
  case none =>
    intro truth hfalse
    rw [hselect]
    exact pick_none (by simpa using hfalse)

end Choice

/-! ## Conditionals that are written -/

theorem access_chain {r : Reference} {name access : String} {path : Path}
    (h : r.access name path = .ok access) : ∃ segments, access = Reference.accessChain segments := by
  have hgives : Gives (lift (r.access name path)) access := ⟨{}, {}, lift_ok.2 ⟨h, rfl⟩⟩
  exact hgives.good (access_holds (C := growth) fun _ => trivial)

section Written
variable {setting : Setting} {child : ChildWriter} {base : Option Node} {name : String}
  {guard : Guard Node} {choice : Choice}

/-- A test is a schema with a call behind it, and perhaps a negation before it. -/
theorem test_lexes {segments : List String} {case : Case Node}
    (hc : growth.Holds Code.LexesOuter (child case.condition)) :
    growth.Holds (fun t => Lexes Text.isOperand t.text)
      (test child (Reference.accessChain segments) case) := by
  have hsorted := Code.lexes_sorted
  refine Contract.holds_bind hc fun code hcode => Contract.holds_pure ?_
  have hnegation : Lexes Text.isOperand (if case.negated then "!" else "") := by
    cases case.negated <;> decide
  have hcall : Code.LexesOuter ((if case.condition.presence.isNone then
      code.chain ⟨"optional", []⟩ else code).chain
        ⟨"safeParse", [.raw (Reference.accessChain segments) .call]⟩) := by
    refine hsorted.chain_one (by decide) ?_ (hsorted.access segments)
    split
    · exact hsorted.chain_bare (by decide) hcode
    · exact hcode
  exact (hnegation.append hcall.operand).append (by decide)

namespace Choice.Writes

variable (h : choice.Writes setting child base name guard)
  (hc : ∀ m ∈ guardNodes base guard, growth.Holds Code.LexesOuter (child m))
include h hc

theorem lexes_tests : ∀ t ∈ choice.tests, Lexes Text.isOperand t.text := by
  intro t ht
  obtain ⟨access, haccess, htests⟩ := h.tests
  obtain ⟨segments, rfl⟩ := access_chain haccess
  obtain ⟨case, hcase, hgives⟩ := forall₂_mem_right htests t ht
  refine hgives.good (test_lexes (hc _ ?_))
  exact List.mem_append_left _ (List.mem_append_left _ (List.mem_map_of_mem hcase))

theorem lexes_fragments : ∀ b ∈ choice.fragments, b.LexesOuter := by
  have hsorted := Code.lexes_sorted.toComposed
  intro b hb
  rcases List.mem_append.1 hb with hb | hb
  · obtain ⟨case, hcase, hgives⟩ := forall₂_mem_right h.branches b hb
    refine hgives.good (branch_holds hsorted fun m hm => hc m ?_)
    apply List.mem_append_left
    apply List.mem_append_right
    exact List.mem_flatMap.2 ⟨case, hcase, hm⟩
  · rw [List.mem_singleton.1 hb]
    exact h.otherwise.good (branch_holds hsorted fun m hm => hc m (List.mem_append_right _ hm))

end Choice.Writes

end Written

/-- A property of an object that is reached and open, with the levels that are left below it. -/
def ReachesProperty (levels : Nat) (root : Node) (l : Nat) (name : String) (k : Node) : Prop :=
  ∃ n, Reaches levels root (l + 1) n ∧ n.isOpen = true ∧ n.kind = .object ∧
    (name, k) ∈ n.keys.getD []

variable {setting : Setting} {levels l : Nat} {root k m : Node} {name : String} {p q : Progress}

theorem ReachesProperty.reaches (h : ReachesProperty levels root l name k)
    (hm : m ∈ propertyNodes k) : Reaches levels root l m := by
  obtain ⟨n, hn, hopen, hkind, hk⟩ := h
  refine hn.step ?_
  rw [children_of_open hopen, hkind]
  exact List.mem_flatMap.2 ⟨(name, k), hk, hm⟩

/-- If the rules are the ones that are supported from the start, and no pattern is a regular expression
already, then a property of a description that is written has one statement per conditional. In the
text of the statement the conditional can be found again, and whatever its tests say the text selects
the branch of the first test that is true. -/
theorem property_selects_first {raw : Value} {property : Property}
    (hrules : setting.rules = .builtin)
    (hread : Node.ofValue setting.options.maxDepth raw = .ok root)
    (hpatterns : ∀ l n, Reaches setting.options.maxDepth root l n → n.quotesPatterns = true)
    (hk : ReachesProperty setting.options.maxDepth root l name k)
    (h : Writing.property setting (write setting l) name k p = .ok (property, q)) :
    List.Forall₂ (fun guard statement => ∃ choice : Choice,
      choice.Writes setting (write setting l) (guardBase k) name guard ∧
        ∃ schema cut expression, choice.ReadFrom name statement.text schema cut expression)
      k.guards property.statements := by
  have hstatements := property_statements h
  refine ((List.forall₂_and_left _ _).2 ⟨fun _ hguard => hguard, hstatements⟩).imp ?_
  rintro guard _ ⟨hguard, choice, hwrites, rfl⟩
  -- Conditions and merged branches are reached through the property, so that all of them lex.
  have hnodes : ∀ m ∈ guardNodes (guardBase k) guard,
      growth.Holds Code.LexesOuter (write setting l m) := by
    intro m hm
    have hreached := hk.reaches (mem_propertyNodes_of_guard hguard hm)
    exact write_lexes hrules (Node.read_wellNamed hread) hpatterns hreached
  refine ⟨choice, hwrites, _, _, _, Choice.statement_readFrom name hwrites.length_eq ?_ ?_⟩
  · exact hwrites.lexes_tests hnodes
  · exact fun b hb => (hwrites.lexes_fragments hnodes b hb).operand

/-- Whether no pattern in the nodes that a node reaches is a regular expression already. -/
def quotesBelow : Nat → Node → Bool
  | 0, n => n.quotesPatterns
  | levels + 1, n => n.quotesPatterns && (children n).all (quotesBelow levels)

theorem Reaches.quotesBelow {n : Node} (h : Reaches levels root l n)
    (hroot : Writing.quotesBelow levels root = true) : Writing.quotesBelow l n = true := by
  induction h with
  | root => exact hroot
  | step _ hm ih =>
    rw [Writing.quotesBelow, Bool.and_eq_true, List.all_eq_true] at ih
    exact ih.2 _ hm

theorem Reaches.quotesPatterns {n : Node} (h : Reaches levels root l n)
    (hroot : Writing.quotesBelow levels root = true) : n.quotesPatterns = true := by
  have hbelow := h.quotesBelow hroot
  cases l with
  | zero => exact hbelow
  | succ l =>
    rw [Writing.quotesBelow, Bool.and_eq_true] at hbelow
    exact hbelow.1

/-- A property with marks in its name. The first test of its conditional is negated and compares with
marks, the second one is an object and stands for several lines, and the pattern in the branch has
marks again. -/
theorem property_selects_first_marked :
    let described (kind : String) (more : Entries) : Value := .map ((.str "type", .str kind) :: more)
    let property : Value := described "string" [(.str "whens", .list [.map
      [(.str "ref", .map [(.str "path", .list [.str "b", .str "c : d"])]),
        (.str "switch", .list
          [.map [(.str "not", .str " ? \" : "), (.str "then", described "string"
              [(.str "rules", .list [.map [(.str "name", .str "pattern"),
                (.str "args", .list [.str "a ? b : c"])]])])],
            .map [(.str "is", described "object" [(.str "keys", .map
              [(.str "e", described "number" [])])])],
            .map [(.str "is", .int 1), (.str "then", described "string"
              [(.str "flags", .map [(.str "presence", .str "required")])])]])]])]
    let raw : Value := described "object" [(.str "keys", .map [(.str "x, \" ? y", property)])]
    let setting : Setting := ⟨{ maxDepth := 4 }, .builtin⟩
    ∃ root k written q, Node.ofValue (4 : Nat) raw = .ok root ∧
      ReachesProperty 4 root 3 "x, \" ? y" k ∧
      Writing.property setting (write setting 3) "x, \" ? y" k {} = .ok (written, q) ∧
      ∃ guard statement, k.guards = [guard] ∧ written.statements = [statement] ∧
        ∃ choice : Choice, choice.tests.length = 3 ∧
          ∃ schema cut expression,
            choice.ReadFrom "x, \" ? y" statement.text schema cut expression := by
  intro described property raw setting
  obtain ⟨root, hread, hbelow, k, hk, written, q, hrun, guard, hguards, hcases⟩ : ∃ root,
      Node.ofValue (4 : Nat) raw = .ok root ∧ quotesBelow 4 root = true ∧ ∃ k,
        ReachesProperty 4 root 3 "x, \" ? y" k ∧ ∃ written q,
          Writing.property setting (write setting 3) "x, \" ? y" k {} = .ok (written, q) ∧
            ∃ guard, k.guards = [guard] ∧ guard.cases.length = 3 :=
    ⟨_, rfl, by decide, _, ⟨_, .root, rfl, rfl, .head _⟩, _, _, rfl, _, rfl, rfl⟩
  have hselects := @property_selects_first setting 3 root k "x, \" ? y" {} q raw written rfl hread
    (fun l n h => h.quotesPatterns hbelow) hk hrun
  rw [hguards, List.forall₂_cons_left_iff] at hselects
  obtain ⟨statement, rest, ⟨choice, hwrites, hreads⟩, hrest, hstatements⟩ := hselects
  rw [List.forall₂_nil_left_iff.1 hrest] at hstatements
  obtain ⟨access, -, htests⟩ := hwrites.tests
  exact ⟨root, k, written, q, hread, hk, hrun, guard, statement, hguards, hstatements, choice,
    htests.length_eq ▸ hcases, hreads⟩

end Writing

end Schemata
