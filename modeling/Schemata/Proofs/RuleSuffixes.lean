import Schemata.Proofs.CodeText
import Schemata.Proofs.Rules
/-!
Rules only append.

Every form adds method calls to the code that it is given, the same ones whatever the code is, and a
method call is written behind its target. So the rules of a node add a suffix to the text of its code.
The suffix depends on the kind of the node, on the rules themselves and on whether predicates may be
used, and neither on the code that it is added to nor on the place of the node; the suffix of two lists
of rules is the one suffix behind the other.

Component: the application of rules, `Writing.applyRules`. Main results:
- `ruleCalls_suffix` — the calls of a rule do not depend on its place;
- `applyRules_appends` — the rules of a node only append, each list its own suffix.
-/

namespace Schemata

namespace Code

/-! ## Method calls as text -/

/-- A method call as it is written behind its target. -/
def Call.text (c : Call) : String := "." ++ Text.callText c.method (texts c.args)

/-- Method calls as they are written one behind the other. -/
def callsText (calls : List Call) : String := Text.concat (calls.map Call.text)

theorem callsText_append (calls calls' : List Call) :
    callsText (calls ++ calls') = callsText calls ++ callsText calls' := by
  rw [callsText, List.map_append, Text.concat_append]
  rfl

theorem text_chain {target : Code} (h : target.precedence ≠ .conditional) (c : Call) :
    (target.chain c).text = target.text ++ c.text := by
  simp only [chain, text, Text.methodText, if_neg h, Call.text, String.append_assoc]

theorem text_chainAll {target : Code} (h : target.precedence ≠ .conditional) (calls : List Call) :
    (target.chainAll calls).text = target.text ++ callsText calls := by
  induction calls generalizing target with
  | nil => exact String.append_empty.symm
  | cons c rest ih =>
    -- Behind the first call the code is a method call itself, and needs no parentheses.
    have hchain : (target.chain c).precedence ≠ .conditional := by simp [chain, precedence]
    calc ((target.chain c).chainAll rest).text
        = (target.chain c).text ++ callsText rest := ih hchain
      _ = target.text ++ (c.text ++ callsText rest) := by rw [text_chain h, String.append_assoc]

end Code

namespace Writing

/-! ## Suffixes -/

/-- What a rule adds to the text of a node of some kind, if it can be written. -/
def ruleSuffix? (table : Rulebook) (kind : Kind) (refinements : Bool) (rule : Rule) : Option String :=
  (table.get? kind rule.name).bind fun form =>
    (form.calls rule ⟨kind, .root, refinements⟩).toOption.map Code.callsText

/-- What some rules add to the text of a node of some kind, if all of them can be written. -/
def suffix? (table : Rulebook) (kind : Kind) (refinements : Bool) : List Rule → Option String
  | [] => some ""
  | rule :: rest => do
    let first ← ruleSuffix? table kind refinements rule
    let others ← suffix? table kind refinements rest
    return first ++ others

theorem suffix?_append (table : Rulebook) (kind : Kind) (refinements : Bool) (front back : List Rule) :
    suffix? table kind refinements (front ++ back) = (do
      let first ← suffix? table kind refinements front
      let second ← suffix? table kind refinements back
      return first ++ second) := by
  induction front with
  | nil => simp [suffix?]
  | cons rule rest ih =>
    simp only [List.cons_append, suffix?, ih, bind_assoc, pure_bind, String.append_assoc]

/-- Neither the calls of a rule nor whether there are any depend on the place of the rule. -/
theorem ruleCalls_suffix (setting : Setting) (kind : Kind) (rule : Rule) (path : Path) :
    (ruleCalls setting kind rule path).toOption.map Code.callsText =
      ruleSuffix? setting.rules kind setting.options.refinements rule := by
  unfold ruleCalls ruleSuffix?
  cases setting.rules.get? kind rule.name with
  | none => rfl
  | some form =>
    dsimp only [Option.bind_some]
    rw [← form.calls_moved rule ⟨kind, .root, setting.options.refinements⟩ path]
    cases form.calls rule ⟨kind, .root, setting.options.refinements⟩ <;> rfl

theorem mapM_suffix (setting : Setting) (kind : Kind) (path : Path) (rules : List Rule) (i : Nat) :
    ((rules.zipIdx i).mapM fun pair => ruleCalls setting kind pair.1 (path.index pair.2)).toOption.map
        (fun groups : List (List Code.Call) => Code.callsText groups.flatten) =
      suffix? setting.rules kind setting.options.refinements rules := by
  induction rules generalizing i with
  | nil => rfl
  | cons rule rest ih =>
    rw [suffix?, ← ruleCalls_suffix setting kind rule (path.index i), ← ih (i + 1), List.zipIdx_cons,
      List.mapM_cons]
    dsimp only
    cases ruleCalls setting kind rule (path.index i) with
    | error failure => rfl
    | ok calls =>
      cases (rest.zipIdx (i + 1)).mapM fun pair => ruleCalls setting kind pair.1 (path.index pair.2) with
      | error failure => rfl
      | ok groups => exact congrArg some (Code.callsText_append calls groups.flatten)

/-- The rules of a node only append to its code. Whatever code they are applied to, unless it is a
conditional, they succeed or fail alike, with the same failure. If they succeed, the text of the code is
followed by a suffix that is the same for all nodes of the kind with these rules, and the suffix of some
rules followed by others is the suffix of the former followed by the suffix of the latter. -/
theorem applyRules_appends (setting : Setting) (node : Node) :
    (∀ target : Code, target.precedence ≠ .conditional →
      (applyRules setting node target).toOption.map Code.text =
        (suffix? setting.rules node.kind setting.options.refinements node.rules).map
          (target.text ++ ·)) ∧
      (∀ (target other : Code) (failure : Failure), applyRules setting node target = .error failure →
        applyRules setting node other = .error failure) ∧
      ∀ front back : List Rule,
        suffix? setting.rules node.kind setting.options.refinements (front ++ back) = (do
          let first ← suffix? setting.rules node.kind setting.options.refinements front
          let second ← suffix? setting.rules node.kind setting.options.refinements back
          return first ++ second) := by
  refine ⟨fun target htarget => ?_, fun target other failure h => ?_, suffix?_append _ _ _⟩
  · rw [← mapM_suffix setting node.kind (node.path.key "rules") node.rules 0]
    rw [applyRules_eq, allRuleCalls]
    cases node.rules.zipIdx.mapM fun pair =>
        ruleCalls setting node.kind pair.1 ((node.path.key "rules").index pair.2) with
    | error failure => rfl
    | ok groups => exact congrArg some (Code.text_chainAll htarget groups.flatten)
  · rw [applyRules_eq] at h ⊢
    rcases Outcome.bind_error.1 h with h | ⟨calls, -, h⟩
    · rw [h, Outcome.error_bind]
    · cases h

/-- Two calls from three rules, one of which adds none, behind a name. -/
theorem applyRules_appends_calls :
    let node : Node :=
      { kind := .string
        rules := [⟨"min", [.int 3]⟩, ⟨"trim", [.bool false]⟩, ⟨"pattern", [.str "a.b"]⟩] }
    let setting : Setting := ⟨{}, Rulebook.builtin⟩
    (Code.name "Base").precedence ≠ .conditional ∧
      (applyRules setting node (.name "Base")).toOption.map Code.text =
        some ("Base" ++ ".min(3).regex(new RegExp(\"a.b\"))") := by
  intro node setting
  have hname : (Code.name "Base").precedence ≠ .conditional := by decide
  exact ⟨hname, ((applyRules_appends setting node).1 _ hname).trans rfl⟩

end Writing

end Schemata
