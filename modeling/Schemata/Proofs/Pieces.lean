import Schemata.Proofs.Descriptions
import Schemata.Proofs.Reached
/-!
What holds of every piece of the generated code.

A fact about a call or a literal by itself holds on all levels of the code as soon as it holds of what
the nodes bring along. Code comes out in two places, as the code of a node and as the body of a
declaration, and one contract covers both.

Component: the code that comes out of the writer, declarations included. Main results:
- `RuleForm.emit_pieces` — a form keeps every fact that is lenient about method calls;
- `write_declares` — if all nodes that are reached bring along code of some sort, all code is of
  that sort;
- `Compiler.good_of_compiled` — and so is the code of a compilation.
-/

namespace Schemata

namespace Code

/-! ## The pieces of a piece of code -/

def parts : Code → List Code
  | raw _ _ => []
  | name _ => []
  | literal _ => []
  | call _ args => args
  | method target _ args => target :: args
  | array items => items
  | object properties => properties.map Prod.snd
  | record fields => fields.map Prod.snd
  | exclusion _ => []
  | filled _ _ => []
  | success _ test => [test]
  | choice cases otherwise => cases.flatMap (fun case => [case.1, case.2]) ++ [otherwise]
  | check _ schema => [schema]
  | checks statements => statements

/-- A fact that holds of a piece of code and of all pieces inside it, on all levels. -/
inductive All (P : Code → Prop) : Code → Prop where
  | intro {code : Code} (self : P code) (parts : ∀ a ∈ code.parts, All P a) : All P code

theorem All.self {P : Code → Prop} {code : Code} (h : All P code) : P code := by
  cases h with
  | intro self _ => exact self

theorem all_leaf {P : Code → Prop} {code : Code} (h : P code) (hparts : code.parts = []) :
    All P code := .intro h (by simp [hparts])

/-- Whether a piece of code holds no values itself and is no union. -/
def isPlain : Code → Bool
  | literal _ => false
  | exclusion _ => false
  | filled _ _ => false
  | call callee _ => callee != "z.union"
  | _ => true

/-- The methods of a chain of calls, first call first. -/
def methods : Code → List String
  | method target m _ => target.methods ++ [m]
  | _ => []

theorem methods_chainAll (target : Code) (calls : List Call) :
    (target.chainAll calls).methods = target.methods ++ calls.map Call.method := by
  induction calls generalizing target with
  | nil => simp [chainAll]
  | cons c calls ih =>
    calc ((target.chain c).chainAll calls).methods
        = (target.methods ++ [c.method]) ++ calls.map Call.method := ih (target.chain c)
      _ = target.methods ++ (c :: calls).map Call.method := by simp

/-- A fact about single pieces of code that can only fail for values that are no finite scalars, for
unions with fewer than two members, and for calls of methods that not every schema has. -/
structure Inherits (P : Code → Prop) : Prop where
  plain : ∀ {code}, code.isPlain = true → code.methods = [] → P code
  scalar : ∀ {v}, v.isScalar = true → v.isFinite = true → P (.literal v)
  filled : ∀ {pieces args}, (∀ v ∈ args, v.isNumber = true ∧ v.isFinite = true) →
    P (.filled pieces args)
  union : ∀ {members}, 2 ≤ members.length → P (.call "z.union" [.array members])
  method : ∀ {target m args}, m ∈ genericMethods → P target → P (.method target m args)
  policy : ∀ {a m}, m ∈ policies → P (.method (.call "z.object" [a]) m [])

/-- A fact about single pieces of code that can only fail for values that are no finite scalars, and
for unions with fewer than two members. -/
structure Lenient (P : Code → Prop) : Prop where
  plain : ∀ {code}, code.isPlain = true → P code
  scalar : ∀ {v}, v.isScalar = true → v.isFinite = true → P (.literal v)
  filled : ∀ {pieces args}, (∀ v ∈ args, v.isNumber = true ∧ v.isFinite = true) →
    P (.filled pieces args)
  union : ∀ {members}, 2 ≤ members.length → P (.call "z.union" [.array members])

theorem two_le_length {members : List Code} (hne : members ≠ []) (hone : ∀ m, members ≠ [m]) :
    2 ≤ members.length := by
  match members with
  | [] => exact absurd rfl hne
  | [m] => exact absurd rfl (hone m)
  | _ :: _ :: rest =>
    simp only [List.length_cons]
    omega

namespace Inherits

variable {P : Code → Prop} (h : Inherits P)
include h

theorem string (s : String) : All P (.literal (.str s)) := all_leaf (h.scalar rfl rfl) rfl

theorem raw (text : String) (precedence : Precedence) : All P (.raw text precedence) :=
  all_leaf (h.plain rfl rfl) rfl

theorem record {fields : List (String × Code)} (hf : ∀ f ∈ fields, All P f.2) :
    All P (.record fields) := .intro (h.plain rfl rfl) (List.forall_mem_map.2 hf)

theorem call {callee : String} {args : List Code} (hc : callee ≠ "z.union")
    (ha : ∀ a ∈ args, All P a) : All P (.call callee args) :=
  .intro (h.plain (by simpa [isPlain] using hc) rfl) ha

theorem composed : Composed (All P) (All P) where
  ofSchema := id
  raw _ := h.raw _ _
  access _ := h.raw _ _
  string := h.string
  date ha := h.call (by decide) (List.forall_mem_singleton.2 ha)
  call _ := h.call
  method hm ht ha := .intro (h.method hm ht.self) (List.forall_mem_cons.2 ⟨ht, ha⟩)
  policy hm ha := .intro (h.policy hm)
    (List.forall_mem_singleton.2 (h.call (by decide) (List.forall_mem_singleton.2 ha)))
  union {members} hne hm := by
    apply union_cases
    · intro m hmembers
      exact hm m (by simp [hmembers])
    · intro hone
      have harray : All P (.array members) := .intro (h.plain rfl rfl) hm
      exact .intro (h.union (two_le_length hne hone)) (List.forall_mem_singleton.2 harray)
  object hp := .intro (h.plain rfl rfl) (List.forall_mem_map.2 hp)
  record := h.record
  success ht := .intro (h.plain rfl rfl) (List.forall_mem_singleton.2 ht)
  choice {cases otherwise} hc ho := by
    refine .intro (h.plain rfl rfl) fun a ha => ?_
    rcases List.mem_append.1 ha with ha | ha
    · obtain ⟨case, hcase, ha⟩ := List.mem_flatMap.1 ha
      rcases List.mem_pair.1 ha with rfl | rfl
      · exact (hc case hcase).1
      · exact (hc case hcase).2
    · exact List.mem_singleton.1 ha ▸ ho
  check hs := .intro (h.plain rfl rfl) (List.forall_mem_singleton.2 hs)
  checks hs := .intro (h.plain rfl rfl) hs

end Inherits

namespace Lenient

variable {P : Code → Prop} (h : Lenient P)
include h

theorem inherits : Inherits P where
  plain hplain _ := h.plain hplain
  scalar := h.scalar
  filled := h.filled
  union := h.union
  method _ _ := h.plain rfl
  policy _ := h.plain rfl

theorem composed : Composed (All P) (All P) := h.inherits.composed

/-- Methods do not have to be names here: the table may give them any text. -/
theorem chainAll {target : Code} {calls : List Call} (ht : All P target)
    (hc : ∀ c ∈ calls, ∀ a ∈ c.args, All P a) : All P (target.chainAll calls) := by
  induction calls generalizing target with
  | nil => exact ht
  | cons c calls ih =>
    have hargs : ∀ a ∈ c.args, All P a := hc c List.mem_cons_self
    apply ih
    · exact .intro (h.plain rfl) (List.forall_mem_cons.2 ⟨ht, hargs⟩)
    · exact fun c' hc' => hc c' (List.mem_cons_of_mem _ hc')

end Lenient

end Code

open Code (All Inherits Lenient)

/-- What a rule becomes holds finite numbers and texts. -/
theorem RuleForm.Makes.pieces {P : Code → Prop} (h : Inherits P) {rule : Rule} {form : RuleForm}
    {calls : List Code.Call} (hm : Makes rule form calls) : ∀ c ∈ calls, ∀ a ∈ c.args, All P a := by
  have hnumber : ∀ v : Value, v.isNumber = true ∧ v.isFinite = true → All P (.literal v) :=
    fun v hv => Code.all_leaf (h.scalar (Value.isScalar_of_isNumber hv.1) hv.2) rfl
  cases hm with
  | method name arity args hargs =>
    rw [List.forall_mem_singleton]
    exact List.forall_mem_map.2 fun v hv => hnumber v (hargs v hv)
  | dateBound name date hdate =>
    have hscalar : date.isScalar = true := by
      rcases Bool.or_eq_true_iff.1 hdate.1 with hd | hd
      · exact Value.isScalar_of_isNumber hd
      · exact Value.isScalar_of_text hd
    have hliteral : All P (.literal date) := Code.all_leaf (h.scalar hscalar hdate.2) rfl
    rw [List.forall_mem_singleton, List.forall_mem_singleton]
    exact h.composed.date hliteral
  | refinement htemplate message wording args hargs =>
    rw [List.forall_mem_singleton]
    refine List.forall_mem_cons.2 ⟨Code.all_leaf (h.filled hargs) rfl, ?_⟩
    exact List.forall_mem_singleton.2 (h.composed.message wording)
  | port => simp [hnumber, Value.isNumber, Value.isFinite]
  | quoted source =>
    rw [List.forall_mem_singleton, List.forall_mem_singleton]
    exact h.call (by decide) (List.forall_mem_singleton.2 (h.string source))
  | version v =>
    rw [List.forall_mem_singleton, List.forall_mem_singleton]
    exact h.composed.record_one (h.string v)
  | format name => simp
  | bare hname => simp
  | untrimmed => simp
  | regex source => simp [h.raw]
  | verbatim hargs hs => simp [h.raw]
  | hexPairs => simp [h.raw]
  | hexDigits => simp [h.raw]

/-- A form keeps every fact that is lenient about method calls. -/
theorem RuleForm.emit_pieces {P : Code → Prop} (h : Lenient P) {form : RuleForm} {target code : Code}
    {rule : Rule} {site : RuleSite} (ht : All P target)
    (hcode : form.emit target rule site = .ok code) : All P code := by
  obtain ⟨calls, hcalls, rfl⟩ := emit_ok hcode
  exact h.chainAll ht ((calls_makes hcalls).pieces h.inherits)

namespace Writing

variable {ε : Type} [Emitter ε] {setting : Setting ε} {levels l : Nat} {root n : Node}

theorem rulesKeep_of_lenient {P : Code → Prop} (h : Lenient P) (setting : Setting) (n : Node) :
    RulesKeep (All P) setting n :=
  rulesKeep_of_emitters (fun _ _ _ _ _ _ _ _ ht hcode => RuleForm.emit_pieces h ht hcode) n

/-! ## Declared code -/

/-- A contract for steps that only declare code of some sort. Errors are always within it. -/
def declaring (good : Code → Prop) (fails : Failure → Prop) (hfails : ∀ e, fails (.rejected e)) :
    Contract where
  change := fun p q => (∀ entry ∈ p.declared.entries, good entry.body) →
    ∀ entry ∈ q.declared.entries, good entry.body
  failure := fails
  refl := fun _ h => h
  trans := fun hpq hqr h => hqr (hpq h)
  note := fun _ _ h => h
  refusal := fun _ _ _ => hfails _

section Declaring
variable {good part : Code → Prop} {fails : Failure → Prop} {hfails : ∀ e, fails (.rejected e)}

theorem named_declares (hname : ∀ name, good (.name name)) {code : Code} (hc : good code) :
    (declaring good fails hfails).Holds good (named n code) := by
  cases hdeclared : n.declaredName? with
  | none =>
    simp only [named, hdeclared]
    exact Contract.holds_pure hc
  | some name =>
    simp only [named, hdeclared]
    refine ⟨fun p a q h => ?_, fun p failure h => ?_⟩
    · obtain ⟨rfl, ⟨rfl, -⟩ | ⟨-, rfl⟩⟩ := declare_ok h
      · exact ⟨hname name, fun hp => hp⟩
      · refine ⟨hname name, fun hp => List.forall_mem_append.2 ⟨hp, ?_⟩⟩
        exact List.forall_mem_singleton.2 hc
    · obtain ⟨first, rfl⟩ := declare_error h
      exact hfails _

/-- If all nodes that are reached bring along code of some sort, then all code that is written is of
that sort, declared code included. -/
theorem write_declares (hgood : Code.Composed good part) (hname : ∀ name, good (.name name))
    (hbrings : ∀ l n, Reaches levels root (l + 1) n → n.isForbidden = false → n.guards = [] →
      Brings good part setting n)
    (hallows : ∀ l n, Reaches levels root (l + 1) n → n.isForbidden = false → n.guards = [] →
      (declaring good fails hfails).Allows setting n)
    (hn : Reaches levels root l n) : (declaring good fails hfails).Holds good (write setting l n) := by
  induction l generalizing n with
  | zero => exact write_zero_holds (hfails _)
  | succ l ih =>
    apply level_composed hgood (hbrings l n hn) (hallows l n hn)
    · exact fun m hm => ih (hn.step hm)
    · exact fun code hcode => named_declares hname hcode

/-- The code of a node, or of a property, is of the sort that the contract gives. -/
theorem good_of_written (hgood : Code.Composed good part)
    (h : (declaring good fails hfails).Holds good (write setting l n)) {p q : Progress} {code : Code}
    (hcode : write setting l n p = .ok (code, q) ∨
      field setting (write setting l) n p = .ok (code, q)) : good code := by
  rcases hcode with hcode | hcode
  · exact (h.1 p code q hcode).1
  · exact ((field_composed hgood h).1 p code q hcode).1

end Declaring

end Writing

/-- The code of a compilation is the text of an expression and of declarations that are of the sort
that the contract gives. -/
theorem Compiler.good_of_compiled {ε : Type} [Emitter ε] {c : Compiler ε} {raw : Value} {root : Node} {result : Result}
    {good : Code → Prop} {fails : Failure → Prop} {hfails : ∀ e, fails (.rejected e)}
    (hread : Node.ofValue c.options.maxDepth raw = .ok root)
    (hwrite : (Writing.declaring good fails hfails).Holds good
      (Writing.write c.setting c.options.maxDepth root))
    (h : c.compile (.tree raw) = .ok result) :
    ∃ top declared, result.code = Listing.text c.options top declared (topName root top declared) ∧
      good top ∧ ∀ entry ∈ declared.entries, good entry.body := by
  rw [compile_of_read hread] at h
  obtain ⟨top, progress, hrun, rfl⟩ := compileNode_ok.1 h
  obtain ⟨htop, hbodies⟩ := hwrite.1 {} top progress hrun
  exact ⟨top, progress.declared, rfl, htop, hbodies (by simp)⟩

end Schemata
