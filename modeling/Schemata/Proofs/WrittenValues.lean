import Schemata.Proofs.Defects
import Schemata.Proofs.Pieces
import Schemata.Proofs.WellFormed
/-!
Only values that have a literal are written.

Values get into the code in two ways. Those of a node are checked when the node is read: lists of
values hold finite scalars, and a default may also be a sequence or a map of such values. The
arguments of a rule are not looked at before the rule is written, and the form of the rule checks them
then. Merging only puts together values that were checked. So the case that a value has no literal
never comes up, integers with too many digits apart, and no piece of the code holds an infinity or an
undefined number (`compile_expressible`).

Component: the literals in the code, `Value.literal`. Main results:
- `literal_of_isExpressible` — what can be expressed has a literal, integers with too many digits
  apart;
- `write_expressible` — only such values are in the code of a node;
- `compile_expressible` — and in that of a compilation.
-/

namespace Schemata

/-! ## Values that can be expressed -/

namespace Value

/-- What can be expressed has a literal, unless an integer in it has too many digits. -/
theorem literal_of_isExpressible {v : Value} (h : v.isExpressible = true) :
    v.literal = if v.hasLongInteger then .error .longInteger else .ok v.source := by
  rw [literal, unwritable_of_isExpressible h]
  cases v.hasLongInteger <;> rfl

theorem isFinite_of_isExpressible {v : Value} (h : v.isExpressible = true) : v.isFinite = true := by
  cases v with
  | float x => exact h
  | decimal d => exact h
  | _ => rfl

/-- Finite numbers are written with digits, signs, points and exponents only. -/
theorem source_numeral {v : Value} (hnumber : v.isNumber = true) (hfinite : v.isFinite = true) :
    ∀ c ∈ v.source.toList, Text.isNumeral c = true := by
  cases v with
  | int n =>
    rw [source, String.toList_ofList]
    exact Decimal.intDigits_numeral n
  | float x =>
    rw [source, Binary64.text, String.toList_ofList]
    exact Binary64.chars_numeral hfinite
  | decimal d =>
    rw [source, Decimal.text, String.toList_ofList]
    exact Decimal.chars_numeral hfinite
  | _ => cases hnumber

end Value

/-! ## Values that are handed on -/

/-- The values of a rule that are handed on to be written, whether or not the rule is refused
afterwards: arguments that were checked. -/
inductive RuleForm.Hands (rule : Rule) (path : Path) : RuleForm → Value → Prop where
  | argument {name : String} {arity i : Nat} {v : Value} (h : rule.numberArgument path i = .ok v) :
    Hands rule path (.method name arity) v
  | filled {predicate message : String} {arity i : Nat} {v : Value}
    (h : rule.numberArgument path i = .ok v) :
    Hands rule path (.refinement predicate message arity) v
  | date {name : String} {v : Value} (h : boundDate name rule path = .ok v) :
    Hands rule path (.dateBound name) v

/-- The values of a node that are handed on to be written: those it lists, its default, the arguments
of its rules, and texts, which are descriptions, messages and patterns. -/
inductive Node.Hands (table : Rulebook) (n : Node) : Value → Prop where
  | listed {v : Value} (h : v ∈ n.valids ++ n.allow ++ n.invalids) : Hands table n v
  | default {v : Value} (h : n.flags.default = some v) : Hands table n v
  | argument {rule : Rule} {form : RuleForm} {path : Path} {v : Value} (hrule : rule ∈ n.rules)
    (hform : table.get? n.kind rule.name = some form) (h : form.Hands rule path v) : Hands table n v
  | text (s : String) : Hands table n (.str s)

theorem RuleForm.Hands.scalar {rule : Rule} {path : Path} {form : RuleForm} {v : Value}
    (h : form.Hands rule path v) : v.isScalar = true ∧ v.isFinite = true := by
  cases h with
  | argument h =>
    obtain ⟨-, hnumber, hfinite⟩ := Rule.numberArgument_ok h
    exact ⟨Value.isScalar_of_isNumber hnumber, hfinite⟩
  | filled h =>
    obtain ⟨-, hnumber, hfinite⟩ := Rule.numberArgument_ok h
    exact ⟨Value.isScalar_of_isNumber hnumber, hfinite⟩
  | date h =>
    obtain ⟨-, hdate, hfinite⟩ := boundDate_ok h
    rcases Bool.or_eq_true_iff.1 hdate with hnumber | htext
    · exact ⟨Value.isScalar_of_isNumber hnumber, hfinite⟩
    · exact ⟨Value.isScalar_of_text htext, hfinite⟩

/-- Values that are handed on are finite scalars, a default apart. -/
theorem Node.Hands.scalar {table : Rulebook} {n : Node} {v : Value} (hn : n.Expressible)
    (h : n.Hands table v) :
    v.isScalar = true ∧ v.isFinite = true ∨ n.flags.default = some v := by
  cases h with
  | listed h => exact .inl (hn.listed v h)
  | default h => exact .inr h
  | argument hrule hform h => exact .inl h.scalar
  | text s => exact .inl ⟨rfl, rfl⟩

theorem Node.Hands.expressible {table : Rulebook} {n : Node} {v : Value} (hn : n.Expressible)
    (h : n.Hands table v) : v.isExpressible = true := by
  rcases h.scalar hn with ⟨hscalar, hfinite⟩ | hdefault
  · exact Value.isExpressible_of_isScalar hscalar hfinite
  · exact hn.default v hdefault

/-! ## Values in the code -/

namespace Code

/-- The values that a piece of code holds itself. -/
def values : Code → List Value
  | literal v => [v]
  | exclusion values => values
  | filled _ args => args
  | _ => []

/-- The values that a piece of code holds itself can be expressed. -/
def IsExpressible (code : Code) : Prop := ∀ v ∈ code.values, v.isExpressible = true

theorem values_of_isPlain {code : Code} (h : code.isPlain = true) : code.values = [] := by
  cases code with
  | literal v => cases h
  | exclusion values => cases h
  | filled pieces args => cases h
  | _ => rfl

theorem isExpressible_lenient : Lenient IsExpressible where
  plain hplain := by simp [IsExpressible, values_of_isPlain hplain]
  scalar hscalar hfinite :=
    List.forall_mem_singleton.2 (Value.isExpressible_of_isScalar hscalar hfinite)
  filled hargs v hv :=
    Value.isExpressible_of_isScalar (Value.isScalar_of_isNumber (hargs v hv).1) (hargs v hv).2
  union _ := by simp [IsExpressible, values]

end Code

/-! ## Values without a literal -/

/-- A failure that is not about a value without a literal. -/
def Failure.IsExpressed (failure : Failure) : Prop := ∀ u, failure ≠ .defect (.unwritable u)

theorem Failure.isExpressed_rejected (e : CompileError) : (Failure.rejected e).IsExpressed :=
  fun _ h => by cases h

theorem Failure.isExpressed_longInteger : (Failure.defect .longInteger).IsExpressed :=
  fun _ h => by cases h

theorem Failure.isExpressed_ofError (e : CompileError) : (Failure.ofError e).IsExpressed := by
  unfold ofError
  split
  · exact isExpressed_rejected e
  · exact isExpressed_longInteger

namespace RuleForm

theorem onlyVersion_ne_unwritable {versions : Value} {u : Unwritable} :
    onlyVersion versions ≠ .error (.unwritable u) := by
  intro h
  unfold onlyVersion at h
  split at h
  case h_4 => split at h <;> cases h
  case h_10 => split at h <;> cases h
  all_goals cases h

theorem templatePieces_ne_unwritable {count : Nat} {mode : Text.TemplateMode} {text : List Char}
    {u : Unwritable} : Text.templatePieces count mode text ≠ .error (.unwritable u) := by
  fun_induction Text.templatePieces count mode text with
  | case1 => exact fun h => by cases h
  | case2 => exact fun h => by cases h
  | case3 rest ih => exact fun h => ih (Outcome.map_error.1 h)
  | case4 rest _ ih => exact ih
  | case5 => exact fun h => by cases h
  | case6 c rest _ _ _ ih => exact fun h => ih (Outcome.map_error.1 h)
  | case7 digits c rest _ ih => exact fun h => ih (Outcome.map_error.1 h)
  | case8 digits c rest _ _ ih => exact ih
  | case9 digits c rest _ _ _ _ ih => exact fun h => ih (Outcome.map_error.1 h)
  | case10 => exact fun h => by cases h
  | case11 => exact fun h => by cases h

/-- The defects of rules are about versions, templates and digits. -/
theorem Defective.ne_unwritable {form : RuleForm} {rule : Rule} {d : Defect}
    (h : Defective rule form d) (u : Unwritable) : d ≠ .unwritable u := by
  rintro rfl
  cases h with
  | versions h => exact onlyVersion_ne_unwritable h
  | predicate h => exact templatePieces_ne_unwritable h
  | message h => exact templatePieces_ne_unwritable h

end RuleForm

namespace Writing

variable {setting : Setting} {levels l : Nat} {root n : Node}

/-- Steps that only declare code with values that can be expressed, and never come upon others. -/
def expressing : Contract :=
  declaring (Code.All Code.IsExpressible) Failure.IsExpressed Failure.isExpressed_rejected

theorem expressing_allows (hn : n.Expressible) : expressing.Allows setting n := by
  constructor
  · intro target failure h u
    obtain ⟨rule, -, path, h⟩ := allRuleCalls_error (applyRules_error h)
    obtain rfl | ⟨e, -, rfl⟩ | ⟨d, form, -, rfl, hdefective⟩ := ruleCalls_error h
    · exact Failure.isExpressed_rejected _ u
    · exact Failure.isExpressed_rejected e u
    · exact fun h => hdefective.ne_unwritable u (Failure.defect.inj h)
  · intro v hv failure h
    rw [toLiteral_of_isExpressible (hn.literals v hv)] at h
    split at h
    · cases h
      exact Failure.isExpressed_longInteger
    · cases h
  · intro _ guard _ _ u h
    cases h

theorem brings_expressible (hn : n.Expressible) :
    Brings (Code.All Code.IsExpressible) (Code.All Code.IsExpressible) setting n where
  rules := rulesKeep_of_lenient Code.isExpressible_lenient setting n
  literals v hv := Code.all_leaf (List.forall_mem_singleton.2 (hn.literals v hv)) rfl
  invalids := by
    apply Code.all_leaf _ rfl
    intro v hv
    apply hn.literals v
    exact List.mem_append_left _ (List.mem_append_right _ hv)
  members _ _ := by
    have hplain : ∀ code : Code, code.values = [] → code.IsExpressible := by
      intro code hvalues
      simp [Code.IsExpressible, hvalues]
    have hnone : Code.All Code.IsExpressible (.array []) := Code.all_leaf (hplain _ rfl) rfl
    exact .intro (hplain _ rfl) (List.forall_mem_singleton.2 hnone)

/-- The code of every node that is reached only holds values that can be expressed, and writing it
never comes upon a value without a literal. -/
theorem write_expressible (hroot : root.All Node.Expressible) (hn : Reaches levels root l n) :
    expressing.Holds (Code.All Code.IsExpressible) (write setting l n) := by
  apply write_declares Code.isExpressible_lenient.composed _ _ _ hn
  · exact fun name => Code.all_leaf (Code.isExpressible_lenient.plain rfl) rfl
  · exact fun l n hn _ _ => brings_expressible (hn.expressible hroot).self
  · exact fun l n hn _ _ => expressing_allows (hn.expressible hroot).self

end Writing

namespace Compiler

theorem compile_isExpressed {c : Compiler} {raw : Value} {failure : Failure}
    (h : c.compile (.tree raw) = .error failure) : failure.IsExpressed := by
  cases hread : Node.ofValue c.options.maxDepth raw with
  | error e =>
    rw [compile_of_unread hread] at h
    cases h
    exact Failure.isExpressed_ofError e
  | ok root =>
    rw [compile_of_read hread] at h
    have hwrite : Writing.expressing.Holds (Code.All Code.IsExpressible)
        (Writing.write c.setting c.options.maxDepth root) :=
      Writing.write_expressible (Node.read_expressible hread) .root
    exact hwrite.2 {} failure (compileNode_error.1 h)

/-- Whatever the description, no compilation ends upon a value without a literal. Every value that is
handed on to be written has one, as far as the digits of its integers go, and it is a finite scalar, or a default made of such values; numbers
are written as numerals. All values in the code of a node or of a property, in the code that comes out
and in the bodies of the declarations can be expressed. -/
theorem compile_expressible (c : Compiler) (raw : Value) :
    (∀ u, c.compile (.tree raw) ≠ .error (.defect (.unwritable u))) ∧
      ∀ root, Node.ofValue c.options.maxDepth raw = .ok root →
        (∀ l n, Writing.Reaches c.options.maxDepth root l n → ∀ v, n.Hands c.rules v →
          v.isExpressible = true ∧
            (v.literal = if v.hasLongInteger then .error .longInteger else .ok v.source) ∧
            (v.isScalar = true ∧ v.isFinite = true ∨ n.flags.default = some v) ∧
            (v.isNumber = true → ∀ c ∈ v.source.toList, Text.isNumeral c = true)) ∧
        (∀ l n, Writing.Reaches c.options.maxDepth root l n → ∀ p code q,
          Writing.write c.setting l n p = .ok (code, q) ∨
            Writing.field c.setting (Writing.write c.setting l) n p = .ok (code, q) →
          code.All Code.IsExpressible) ∧
        ∀ result, c.compile (.tree raw) = .ok result → ∃ top declared,
          result.code = Listing.text c.options top declared (topName root top declared) ∧
            top.All Code.IsExpressible ∧
            ∀ entry ∈ declared.entries, entry.body.All Code.IsExpressible := by
  refine ⟨fun u h => compile_isExpressed h u rfl, fun root hread => ?_⟩
  have hroot : root.All Node.Expressible := Node.read_expressible hread
  refine ⟨fun l n hn v hv => ?_, fun l n hn p code q hcode => ?_, fun result h => ?_⟩
  · have hnode := (hn.expressible hroot).self
    have hexpressible := hv.expressible hnode
    refine ⟨hexpressible, Value.literal_of_isExpressible hexpressible, hv.scalar hnode, ?_⟩
    exact fun hnumber => Value.source_numeral hnumber (Value.isFinite_of_isExpressible hexpressible)
  · exact Writing.good_of_written Code.isExpressible_lenient.composed
      (Writing.write_expressible hroot hn) hcode
  · exact good_of_compiled hread (Writing.write_expressible hroot .root) h

/-- An array with a rule, and with a default that has a decimal inside. -/
theorem compile_expressible_nested :
    let default : Value := .list [.int 1, .map [(.str "a", .decimal (.finite false 15 (-1)))]]
    let description : Value := .map [(.str "type", .str "array"),
      (.str "flags", .map [(.str "default", default)]),
      (.str "rules", .list [.map [(.str "name", .str "min"), (.str "args", .list [.int 2])]])]
    let root : Node :=
      { kind := .array, flags := { default := some default }, rules := [⟨"min", [.int 2]⟩] }
    Node.ofValue (64 : Nat) description = .ok root ∧
      root.Hands .builtin default ∧ default.literal = .ok default.source ∧
      root.Hands .builtin (.int 2) ∧ (Value.int 2).literal = .ok "2" ∧
      ∃ result top declared, Compiler.compile {} (.tree description) = .ok result ∧
        result.code = Listing.text {} top declared (topName root top declared) ∧
        top.All Code.IsExpressible := by
  intro default description root
  have hread : Node.ofValue (64 : Nat) description = .ok root := rfl
  have hdefault : root.Hands .builtin default := .default rfl
  have hform : Rulebook.builtin.get? .array "min" = some (.method "min" 1) := by decide
  have hnumber : Rule.numberArgument ⟨"min", [.int 2]⟩ .root 0 = .ok (.int 2) := rfl
  have hargument : root.Hands .builtin (.int 2) :=
    .argument List.mem_cons_self hform (.argument hnumber)
  obtain ⟨result, hrun⟩ : ∃ result, Compiler.compile {} (.tree description) = .ok result := ⟨_, rfl⟩
  obtain ⟨-, hexpressed⟩ := compile_expressible {} description
  obtain ⟨hvalues, -, hresult⟩ := hexpressed root hread
  obtain ⟨-, hdefaultLiteral, -⟩ := hvalues 64 root .root default hdefault
  obtain ⟨-, hargumentLiteral, -⟩ := hvalues 64 root .root (.int 2) hargument
  obtain ⟨top, declared, hcode, htop, -⟩ := hresult result hrun
  exact ⟨hread, hdefault, hdefaultLiteral, hargument, hargumentLiteral, result, top, declared, hrun,
    hcode, htop⟩

end Compiler

end Schemata
