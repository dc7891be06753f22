import Schemata.Proofs.Pieces
import Schemata.Proofs.Shown
/-!
The order of the methods in a chain of calls.

Effects, which refine or transform a schema, give a schema that has nothing but the methods that every
schema has. A method that belongs to one type of schema has to come before them. Rules are chained in
the order in which a description lists them, and with the rules that are supported from the start
there is one type of schema with rules of both sorts: an array can be asked to have items that differ,
which is an effect, and to have a certain length, which takes a method of arrays. Main statement: all
chains are in order exactly if no array asks for its items to differ before it asks for a length.

Component: the chains of method calls that the writer makes. Main results:
- `array_isOrderly_iff` — when the rules of an array are in order;
- `Emitted.isOrderly` — if they are, then so are all chains;
- `compile_methods_ordered` — both for every compilation that succeeds.
-/

namespace Schemata

namespace Code

/-! ## Chains in order -/

/-- The methods that give a schema with nothing but the methods of every schema. -/
def effects : List String := ["refine", "superRefine", "transform"]

/-- No method that belongs to one type of schema comes after an effect. -/
def IsOrderly (code : Code) : Prop :=
  code.methods.Pairwise fun m next => m ∈ effects → next ∈ genericMethods

instance (code : Code) : Decidable code.IsOrderly := inferInstanceAs (Decidable (List.Pairwise _ _))

theorem isOrderly_of_methods_nil {code : Code} (h : code.methods = []) : code.IsOrderly := by
  rw [IsOrderly, h]
  exact .nil

theorem IsOrderly.method {target : Code} {m : String} {args : List Code} (hm : m ∈ genericMethods)
    (h : target.IsOrderly) : (Code.method target m args).IsOrderly := by
  show (target.methods ++ [m]).Pairwise _
  refine List.pairwise_append.2 ⟨h, List.pairwise_singleton _ m, ?_⟩
  intro _ _ next hnext _
  rw [List.mem_singleton.1 hnext]
  exact hm

theorem isOrderly_inherits : Inherits IsOrderly where
  plain _ h := isOrderly_of_methods_nil h
  scalar _ _ := isOrderly_of_methods_nil rfl
  filled _ := isOrderly_of_methods_nil rfl
  union _ := isOrderly_of_methods_nil rfl
  method := IsOrderly.method
  policy _ := List.pairwise_singleton _ _

/-- A chain is in order on all its levels if it is in order as a whole. -/
theorem all_chainAll {target : Code} {calls : List Call} (ht : All IsOrderly target)
    (hargs : ∀ c ∈ calls, ∀ a ∈ c.args, All IsOrderly a) (h : (target.chainAll calls).IsOrderly) :
    All IsOrderly (target.chainAll calls) := by
  induction calls generalizing target with
  | nil => exact ht
  | cons c calls ih =>
    have hfirst : (target.chain c).IsOrderly := by
      rw [IsOrderly, methods_chainAll, List.map_cons, List.append_cons] at h
      exact (List.pairwise_append.1 h).1
    apply ih
    · exact .intro hfirst (List.forall_mem_cons.2 ⟨ht, hargs c List.mem_cons_self⟩)
    · exact fun c' hc' => hargs c' (List.mem_cons_of_mem _ hc')
    · exact h

end Code

open Code (All effects genericMethods)

/-! ## The methods of rules -/

namespace RuleForm

def isRefinement : RuleForm → Bool
  | refinement _ _ _ => true
  | _ => false

/-- Whether a rule of some form only calls methods that are no effects. -/
def isNative : RuleForm → Bool
  | method name _ => name ∉ effects
  | format name => name ∉ effects
  | dateBound name => name ∉ effects
  | refinement _ _ _ => false
  | _ => true

theorem calls_method {name : String} {arity : Nat} {rule : Rule} {site : RuleSite}
    {group : List Code.Call} (h : (method name arity).calls rule site = .ok group) :
    group.map Code.Call.method = [name] := by
  obtain ⟨args, -, hgroup⟩ := Outcome.bind_ok.1 h
  cases hgroup
  rfl

theorem calls_refinement {predicate message : String} {arity : Nat} {rule : Rule} {site : RuleSite}
    {group : List Code.Call} (h : (refinement predicate message arity).calls rule site = .ok group) :
    group.map Code.Call.method = ["refine"] := by
  simp only [calls, refinementCalls] at h
  split at h
  · cases h
  · simp only [Outcome.bind_ok, Outcome.pure_ok] at h
    obtain ⟨_, -, _, -, _, -, rfl⟩ := h
    rfl

theorem Makes.native {rule : Rule} {form : RuleForm} {group : List Code.Call}
    (h : Makes rule form group) (hform : form.isNative = true) : ∀ c ∈ group, c.method ∉ effects := by
  cases h with
  | method name arity args hargs => exact List.forall_mem_singleton.2 (of_decide_eq_true hform)
  | format name => exact List.forall_mem_singleton.2 (of_decide_eq_true hform)
  | dateBound name date hdate => exact List.forall_mem_singleton.2 (of_decide_eq_true hform)
  | bare hname =>
    have hbare : ∀ name ∈ ["trim", "toLowerCase", "toUpperCase", "ip", "positive", "negative"],
        name ∉ effects := by decide
    exact List.forall_mem_singleton.2 (hbare _ hname)
  | refinement => cases hform
  | untrimmed => simp
  | port => decide
  | _ => exact List.forall_mem_singleton.2 (by simp [effects])

end RuleForm

namespace Rulebook

theorem builtin_kinds : ∀ entry ∈ builtin.entries,
    entry.kind ≠ .object ∧ entry.kind ≠ .alternatives := by
  decide +kernel

theorem builtin_native : ∀ entry ∈ builtin.entries, entry.kind ≠ .array → entry.kind ≠ .binary →
    entry.emitter.all RuleForm.isNative = true := by
  decide +kernel

theorem builtin_binary : ∀ entry ∈ builtin.entries, entry.kind = .binary →
    entry.emitter.all RuleForm.isRefinement = true := by
  decide +kernel

def arrayNames : List String := ["min", "max", "length", "unique"]

def arrayMethod (name : String) : String := if name = "unique" then "refine" else name

theorem builtin_array : ∀ entry ∈ builtin.entries, entry.kind = .array →
    entry.name ∈ arrayNames ∧
      if entry.name = "unique" then entry.emitter.all RuleForm.isRefinement = true
      else entry.emitter = some (.method entry.name 1) := by
  decide +kernel

/-- Among the methods of arrays, only that of items that differ is an effect, and only that belongs to
every schema. -/
theorem arrayMethod_order : ∀ name ∈ arrayNames, ∀ next ∈ arrayNames,
    ((arrayMethod name ∈ effects → arrayMethod next ∈ genericMethods) ↔
      (name = "unique" → next = "unique")) := by
  decide

end Rulebook

/-- Nothing but further rules for items that differ follows such a rule. -/
def Node.UniqueLast (n : Node) : Prop :=
  n.rules.Pairwise fun rule next => rule.name = "unique" → next.name = "unique"

namespace Writing

/-! ## The rules of a node -/

variable {setting : Setting} {levels l : Nat} {root n : Node} {calls : List Code.Call}

open Rulebook (arrayNames arrayMethod)

theorem ruleCalls_array (hrules : setting.rules = .builtin) {rule : Rule} {path : Path}
    (h : ruleCalls setting .array rule path = .ok calls) :
    rule.name ∈ arrayNames ∧ calls.map Code.Call.method = [arrayMethod rule.name] := by
  simp only [ruleCalls, hrules] at h
  split at h
  · rename_i form hform
    obtain ⟨hname, hmethod⟩ := Rulebook.builtin_array _ (Rulebook.mem_of_get? hform) rfl
    refine ⟨hname, ?_⟩
    unfold arrayMethod
    split
    · rename_i hunique
      rw [if_pos hunique] at hmethod
      cases form with
      | refinement predicate message arity => exact RuleForm.calls_refinement h
      | _ => cases hmethod
    · rename_i hunique
      rw [if_neg hunique] at hmethod
      obtain rfl : form = .method rule.name 1 := Option.some.inj hmethod
      exact RuleForm.calls_method h
  · cases h

/-- The rules of an array call one method each, in the order of the rules. -/
theorem allRuleCalls_array (hrules : setting.rules = .builtin) (hkind : n.kind = .array)
    (h : allRuleCalls setting n = .ok calls) :
    (∀ rule ∈ n.rules, rule.name ∈ arrayNames) ∧
      calls.map Code.Call.method = n.rules.map fun rule => arrayMethod rule.name := by
  obtain ⟨groups, hgroups, hcalls⟩ := Outcome.bind_ok.1 h
  cases hcalls
  rw [hkind] at hgroups
  have heach : List.Forall₂ (fun (rule : Rule) (group : List Code.Call) =>
      rule.name ∈ arrayNames ∧ group.map Code.Call.method = [arrayMethod rule.name])
      n.rules groups := by
    have hpairs := (Outcome.mapM_forall₂ hgroups).imp fun pair group h => ruleCalls_array hrules h
    rw [← List.zipIdx_map_fst 0 n.rules]
    exact List.forall₂_map_left_iff.2 hpairs
  clear h hgroups
  generalize n.rules = rules at heach
  induction heach with
  | nil => simp
  | cons hrule _ ih => exact ⟨List.forall_mem_cons.2 ⟨hrule.1, ih.1⟩, by simp [hrule.2, ih.2]⟩

/-- The rules of an array are in order if none of another sort follows one for items that differ. -/
theorem array_isOrderly_iff (hrules : setting.rules = .builtin) (hkind : n.kind = .array)
    (h : allRuleCalls setting n = .ok calls) (callee : String) (args : List Code) :
    ((Code.call callee args).chainAll calls).IsOrderly ↔ n.UniqueLast := by
  obtain ⟨hnames, hmethods⟩ := allRuleCalls_array hrules hkind h
  have hchain : ((Code.call callee args).chainAll calls).methods =
      n.rules.map fun rule => arrayMethod rule.name := by
    rw [Code.methods_chainAll, hmethods]
    rfl
  rw [Code.IsOrderly, hchain, List.pairwise_map]
  apply List.Pairwise.iff_of_mem
  intro rule next hrule hnext
  exact Rulebook.arrayMethod_order _ (hnames rule hrule) _ (hnames next hnext)

/-- Nodes of the other kinds have rules of one sort. -/
theorem chain_isOrderly (hrules : setting.rules = .builtin) (hkind : n.kind ≠ .array)
    (h : allRuleCalls setting n = .ok calls) (callee : String) (args : List Code) :
    ((Code.call callee args).chainAll calls).IsOrderly := by
  have hform : ∀ c ∈ calls, if n.kind = .binary then c.method ∈ genericMethods
      else c.method ∉ effects := by
    intro c hc
    obtain ⟨rule, -, form, site, group, hform, hgroup, hc⟩ := calls_of_mem_calls h hc
    rw [hrules] at hform
    have hentry := Rulebook.mem_of_get? hform
    split
    · rename_i hbinary
      have hrefinement := Rulebook.builtin_binary _ hentry hbinary
      cases form with
      | refinement predicate message arity =>
        have hmethod := List.mem_map_of_mem (f := Code.Call.method) hc
        rw [RuleForm.calls_refinement hgroup, List.mem_singleton] at hmethod
        rw [hmethod]
        decide
      | _ => cases hrefinement
    · rename_i hbinary
      have hnative := Rulebook.builtin_native _ hentry hkind hbinary
      exact (RuleForm.calls_makes hgroup).native hnative c hc
  rw [Code.IsOrderly, Code.methods_chainAll]
  refine List.pairwise_map.2 (List.pairwise_of_forall_mem_list fun c hc next hnext heffect => ?_)
  by_cases hbinary : n.kind = .binary
  · simpa [hbinary] using hform next hnext
  · exact absurd heffect (by simpa [hbinary] using hform c hc)

theorem calls_eq_nil (hrules : setting.rules = .builtin)
    (hkind : n.kind = .object ∨ n.kind = .alternatives) (h : allRuleCalls setting n = .ok calls) :
    calls = [] := by
  rw [List.eq_nil_iff_forall_not_mem]
  intro c hc
  obtain ⟨rule, -, form, -, -, hform, -⟩ := calls_of_mem_calls h hc
  rw [hrules] at hform
  obtain ⟨hobject, halternatives⟩ := Rulebook.builtin_kinds _ (Rulebook.mem_of_get? hform)
  rcases hkind with hkind | hkind
  · exact hobject hkind
  · exact halternatives hkind

/-- The rules of a node keep chains in order, unless the node is an array whose rules are not. -/
theorem rulesKeep_orderly (hrules : setting.rules = .builtin)
    (horder : n.kind = .array → n.UniqueLast) : RulesKeep (All Code.IsOrderly) setting n := by
  intro target code hstart ht hcode
  obtain ⟨calls, hcalls, rfl⟩ := applyRules_ok hcode
  have hargs : ∀ c ∈ calls, ∀ a ∈ c.args, All Code.IsOrderly a := by
    intro c hc
    obtain ⟨rule, -, form, group, -, hmakes, hc⟩ := makes_of_mem_calls hcalls hc
    exact hmakes.pieces Code.isOrderly_inherits c hc
  apply Code.all_chainAll ht hargs
  rcases hstart with hkind | hkind | ⟨callee, args, rfl⟩
  · rw [calls_eq_nil hrules (.inl hkind) hcalls]
    exact ht.self
  · rw [calls_eq_nil hrules (.inr hkind) hcalls]
    exact ht.self
  · by_cases hkind : n.kind = .array
    · exact (array_isOrderly_iff hrules hkind hcalls callee args).2 (horder hkind)
    · exact chain_isOrderly hrules hkind hcalls callee args

/-! ## The code of a description -/

/-- The pieces of code that are written for a description: the code of nodes, of properties and of
bodies, the code that is declared, and all that these are made of. -/
inductive Emitted (setting : Setting) (levels : Nat) (root : Node) : Code → Prop where
  | node {l : Nat} {n : Node} {p q : Progress} {code : Code} (hn : Reaches levels root l n)
    (h : write setting l n p = .ok (code, q)) : Emitted setting levels root code
  | property {l : Nat} {n : Node} {p q : Progress} {code : Code} (hn : Reaches levels root l n)
    (h : field setting (write setting l) n p = .ok (code, q)) : Emitted setting levels root code
  | body {l : Nat} {n : Node} {p q : Progress} {code : Code} (hn : Reaches levels root (l + 1) n)
    (hopen : n.isForbidden = false) (h : body setting (write setting l) n p = .ok (code, q)) :
    Emitted setting levels root code
  | declared {top : Code} {q : Progress} {entry : Declaration}
    (h : write setting levels root {} = .ok (top, q)) (hentry : entry ∈ q.declared.entries) :
    Emitted setting levels root entry.body
  | part {code a : Code} (h : Emitted setting levels root code) (ha : a ∈ code.parts) :
    Emitted setting levels root a

section Ordered
variable (hrules : setting.rules = .builtin)
  (horder : ∀ l n, Reaches levels root (l + 1) n → n.isForbidden = false → n.kind = .array →
    n.UniqueLast)
include hrules horder

theorem brings_orderly (hn : Reaches levels root (l + 1) n) (hopen : n.isForbidden = false) :
    Brings (All Code.IsOrderly) (All Code.IsOrderly) setting n where
  rules := rulesKeep_orderly hrules (horder l n hn hopen)
  literals _ _ := Code.all_leaf (Code.isOrderly_of_methods_nil rfl) rfl
  invalids := Code.all_leaf (Code.isOrderly_of_methods_nil rfl) rfl
  members _ _ := by
    have hnone : All Code.IsOrderly (.array []) :=
      Code.all_leaf (Code.isOrderly_of_methods_nil rfl) rfl
    exact .intro (Code.isOrderly_of_methods_nil rfl) (List.forall_mem_singleton.2 hnone)

theorem write_isOrderly (hn : Reaches levels root l n) :
    (declaring (All Code.IsOrderly) (fun _ => True) fun _ => trivial).Holds (All Code.IsOrderly)
      (write setting l n) := by
  apply write_declares Code.isOrderly_inherits.composed _ _ _ hn
  · exact fun name => Code.all_leaf (Code.isOrderly_of_methods_nil rfl) rfl
  · exact fun l n hn hopen _ => brings_orderly hrules horder hn hopen
  · exact fun _ _ _ _ _ => ⟨fun _ _ _ => trivial, fun _ _ _ _ => trivial, fun _ _ _ _ => trivial⟩

/-- If the rules of arrays are in order, then so are all chains. -/
theorem Emitted.isOrderly {code : Code} (h : Emitted setting levels root code) :
    All Code.IsOrderly code := by
  have hcomposed := Code.isOrderly_inherits.composed
  induction h with
  | node hn h => exact good_of_written hcomposed (write_isOrderly hrules horder hn) (.inl h)
  | property hn h => exact good_of_written hcomposed (write_isOrderly hrules horder hn) (.inr h)
  | @body l n p q code hn hopen h =>
    have hbody : (declaring (All Code.IsOrderly) (fun _ => True) fun _ => trivial).Holds
        (All Code.IsOrderly) (Writing.body setting (write setting l) n) := by
      apply body_composed hcomposed hopen (brings_orderly hrules horder hn hopen)
      · exact ⟨fun _ _ _ => trivial, fun _ _ _ _ => trivial, fun _ _ _ _ => trivial⟩
      · exact fun m hm => write_isOrderly hrules horder (hn.step hm)
    exact (hbody.1 p code q h).1
  | declared h hentry => exact ((write_isOrderly hrules horder .root).1 _ _ _ h).2 (by simp) _ hentry
  | part _ ha ih =>
    cases ih with
    | intro _ hparts => exact hparts _ ha

end Ordered

/-! ## Chains that are not in order -/

/-- What is completed is a piece of what comes out. -/
theorem Emitted.of_complete {target code : Code} {p q : Progress}
    (h : complete n target p = .ok (code, q)) (hcode : Emitted setting levels root code) :
    Emitted setting levels root target := by
  obtain ⟨wider, r, hwider, h⟩ := bind_ok.1 h
  obtain ⟨_, _, -, hlast⟩ := bind_ok.1 h
  cases hlast
  -- Description, null and further values are added in this order, and are taken off again.
  have hdescribed : Emitted setting levels root wider := by
    unfold addDescription at hcode
    split at hcode
    · split at hcode
      · exact hcode
      · exact hcode.part List.mem_cons_self
    · exact hcode
  obtain ⟨members, hmembers, hwider⟩ := Outcome.bind_ok.1 (lift_ok.1 hwider).1
  cases hwider
  have hmore : Emitted setting levels root (if (n.allow.filter fun v => !v.isNull).isEmpty then target
      else Code.union (target :: members)) := by
    split at hdescribed
    · exact hdescribed.part List.mem_cons_self
    · exact hdescribed
  split at hmore
  · exact hmore
  · cases members with
    | nil => exact hmore
    | cons member rest => exact (hmore.part List.mem_cons_self).part List.mem_cons_self

/-- An array that is written is written with all its rules in their order. -/
theorem Emitted.array (hn : Reaches levels root (l + 1) n) (hopen : n.isForbidden = false)
    (hkind : n.kind = .array) {top : Code} {p q : Progress}
    (hrun : write setting levels root p = .ok (top, q)) : ∃ element calls,
      allRuleCalls setting n = .ok calls ∧
        Emitted setting levels root ((Code.call "z.array" [element]).chainAll calls) := by
  obtain ⟨p', code, q', -, hbody, -⟩ := hn.ran_body hrun hopen
  have hemitted : Emitted setting levels root code := .body hn hopen hbody
  cases hguards : n.guards with
  | cons guard rest =>
    simp only [Writing.body, hguards] at hbody
    cases hbody
  | nil =>
    simp only [Writing.body, hguards, hkind] at hbody
    obtain ⟨chain, r, harray, hcomplete⟩ := bind_ok.1 hbody
    obtain ⟨items, _, -, hchain⟩ := bind_ok.1 harray
    obtain ⟨calls, hcalls, rfl⟩ := applyRules_ok (lift_ok.1 hchain).1
    simp only [completeComposite] at hcomplete
    split at hcomplete
    · cases hcomplete
    · exact ⟨_, calls, hcalls, .of_complete hcomplete hemitted⟩

end Writing

namespace Compiler

/-- With the rules that are supported from the start, whatever the options: all code of a description
that is compiled is in order, in every chain of calls, exactly if no array that is written asks for
its items to differ and for a length after that. -/
theorem compile_methods_ordered (options : Options) {raw : Value} {root : Node} {result : Result}
    (hread : Node.ofValue options.maxDepth raw = .ok root)
    (h : Compiler.compile ⟨options, Rulebook.builtin⟩ (.tree raw) = .ok result) :
    (∃ top declared, result.code = Listing.text options top declared (topName root top declared) ∧
        Writing.Emitted ⟨options, Rulebook.builtin⟩ options.maxDepth root top ∧
        ∀ entry ∈ declared.entries,
          Writing.Emitted ⟨options, Rulebook.builtin⟩ options.maxDepth root entry.body) ∧
      ((∀ code, Writing.Emitted ⟨options, Rulebook.builtin⟩ options.maxDepth root code →
          code.IsOrderly) ↔
        ∀ l n, Writing.Reaches options.maxDepth root (l + 1) n → n.isForbidden = false →
          n.kind = .array → n.UniqueLast) := by
  rw [compile_of_read (c := ⟨options, Rulebook.builtin⟩) hread] at h
  obtain ⟨top, progress, hrun, rfl⟩ := compileNode_ok.1 h
  refine ⟨⟨top, progress.declared, rfl, .node .root hrun, fun entry => .declared hrun⟩, ?_⟩
  constructor
  · intro hall l n hn hopen hkind
    obtain ⟨element, calls, hcalls, hemitted⟩ := Writing.Emitted.array hn hopen hkind hrun
    exact (Writing.array_isOrderly_iff rfl hkind hcalls _ _).1 (hall _ hemitted)
  · intro horder code hcode
    exact (hcode.isOrderly rfl horder).self

/-- An object whose property has a base with a length and a branch that asks for items that differ:
the rules of the branch come after those of the base. -/
theorem compile_methods_ordered_branch :
    let rule (name : String) (args : List Value) : Value :=
      .map [(.str "name", .str name), (.str "args", .list args)]
    let description : Value := .map [(.str "type", .str "object"), (.str "keys", .map
      [(.str "size", .map [(.str "type", .str "number"), (.str "invalid", .list [.int 3])]),
        (.str "list", .map [(.str "type", .str "array"), (.str "rules", .list [rule "min" [.int 1]]),
          (.str "whens", .list [.map [(.str "ref", .str "size"), (.str "is", .int 1),
            (.str "then", .map [(.str "type", .str "array"),
              (.str "rules", .list [rule "unique" []])])]])])])]
    ∃ root result, Node.ofValue (64 : Nat) description = .ok root ∧
      Compiler.compile ⟨{}, Rulebook.builtin⟩ (.tree description) = .ok result ∧
      (∃ top declared, result.code = Listing.text {} top declared (topName root top declared) ∧
        Writing.Emitted ⟨{}, Rulebook.builtin⟩ 64 root top ∧
        ∀ entry ∈ declared.entries, Writing.Emitted ⟨{}, Rulebook.builtin⟩ 64 root entry.body) ∧
      ((∀ code, Writing.Emitted ⟨{}, Rulebook.builtin⟩ 64 root code → code.IsOrderly) ↔
        ∀ l n, Writing.Reaches 64 root (l + 1) n → n.isForbidden = false → n.kind = .array →
          n.UniqueLast) := by
  intro rule description
  obtain ⟨root, hread⟩ : ∃ root, Node.ofValue (64 : Nat) description = .ok root := ⟨_, rfl⟩
  obtain ⟨result, hrun⟩ : ∃ result,
      Compiler.compile ⟨{}, Rulebook.builtin⟩ (.tree description) = .ok result := ⟨_, rfl⟩
  exact ⟨root, result, hread, hrun, compile_methods_ordered {} hread hrun⟩

/-- An array that asks for its items to differ and then for a length. -/
theorem compile_length_after_refine :
    let description : Value := .map [(.str "type", .str "array"), (.str "rules", .list
      [.map [(.str "name", .str "unique")],
        .map [(.str "name", .str "min"), (.str "args", .list [.int 1])]])]
    ∃ root result code, Node.ofValue (64 : Nat) description = .ok root ∧
      Compiler.compile {} (.tree description) = .ok result ∧ result.code = code.text ∧
      Writing.Emitted ⟨{}, Rulebook.builtin⟩ 64 root code ∧
      code.methods = ["refine", "min"] ∧ ¬code.IsOrderly := by
  intro description
  obtain ⟨root, hread, code, progress, hwrite, hmethods, hresult⟩ : ∃ root,
      Node.ofValue (64 : Nat) description = .ok root ∧ ∃ code progress,
        Writing.write ⟨{}, Rulebook.builtin⟩ 64 root {} = .ok (code, progress) ∧
          code.methods = ["refine", "min"] ∧ ∃ result,
            Compiler.compile {} (.tree description) = .ok result ∧ result.code = code.text :=
    ⟨_, rfl, _, _, rfl, rfl, _, rfl, rfl⟩
  obtain ⟨result, hrun, htext⟩ := hresult
  refine ⟨root, result, code, hread, hrun, htext, .node .root hwrite, hmethods, ?_⟩
  rw [Code.IsOrderly, hmethods]
  decide

end Compiler

end Schemata
