import Schemata.Proofs.Shown
/-!
No rule is dropped without a word.

The body of a node asks the table for every rule of the node, whatever its kind, before anything else
can take the place of the rules; a rule that the table does not have ends the run. What is true of the
nodes that are shown is true of what the branches of conditional properties make of them: the rules of
the base come first, those of the branch follow, and both are looked up under the merged kind.

Component: the table of rules, `Rulebook`, as the writer asks it. Main results:
- `body_supported` — writing the body of an open node looks up all its rules;
- `merged_supported` — what a branch makes of its base has the rules of both;
- `compile_supported` — in a compilation that succeeds the table has every rule.
-/

namespace Schemata

variable {ε : Type} [Emitter ε]

/-- Whether a table says how a rule of a kind of node is written. -/
def Rulebook.Supports (table : Rulebook ε) (kind : Kind) (rule : Rule) : Prop :=
  (table.get? kind rule.name).isSome = true

namespace Writing

variable {setting : Setting ε} {child : ChildWriter} {n : Node} {p q : Progress} {code : Code}

/-! ## The rules of one node -/

/-- Whatever code a rule is added to, the table is asked for it. -/
theorem applyRule_supported {kind : Kind} {target : Code} {rule : Rule} {path : Path}
    (h : applyRule setting kind target rule path = .ok code) : setting.rules.Supports kind rule := by
  unfold applyRule at h
  unfold Rulebook.Supports
  cases hemitter : setting.rules.get? kind rule.name with
  | some emitter => rfl
  | none =>
    rw [hemitter] at h
    cases h

theorem applyRules_supported {target : Code} (h : applyRules setting n target = .ok code) :
    ∀ rule ∈ n.rules, setting.rules.Supports n.kind rule := by
  intro rule hrule
  obtain ⟨i, hi⟩ := List.mem_iff_getElem?.1 hrule
  obtain ⟨before, after, hstep⟩ := Outcome.foldlM_ok_all h (rule, i)
    (List.mk_mem_zipIdx_iff_getElem?.2 hi)
  exact applyRule_supported hstep

/-- Writing the body of an open node looks up all its rules. -/
theorem body_supported (hopen : n.isOpen = true) (h : body setting child n p = .ok (code, q)) :
    ∀ rule ∈ n.rules, setting.rules.Supports n.kind rule := by
  obtain ⟨hf, hguards⟩ := Node.isOpen_iff.1 hopen
  obtain ⟨target, ruled, hruled⟩ := body_applies hf hguards h
  exact applyRules_supported hruled

/-! ## The rules of all nodes that are written -/

section Run
variable {levels l : Nat} {root k base branch m : Node} {name : String} {guard : Guard Node}
  {top : Code}

theorem Reaches.supported (h : Reaches levels root (l + 1) n)
    (hrun : write setting levels root p = .ok (top, q)) (hopen : n.isOpen = true) :
    ∀ rule ∈ n.rules, setting.rules.Supports n.kind rule := by
  obtain ⟨p', code, q', -, hbody, -⟩ := h.ran_body hrun (Node.isOpen_iff.1 hopen).1
  exact body_supported hopen hbody

/-- What a branch makes of its base has the rules of both, and all of them are looked up. -/
theorem merged_supported (hrun : write setting levels root p = .ok (top, q))
    (hroot : root.All Node.Housed) (hk : root.ShowsProperty name k) (hguard : guard ∈ k.guards)
    (hbranch : branch ∈ guard.branches) (hbase : guardBase k = some base) :
    ∃ m, base.merge branch = .ok m ∧ (m.isForbidden = false →
      ∀ rule ∈ base.rules ++ branch.rules, setting.rules.Supports m.kind rule) := by
  obtain ⟨n, hn, hopen, hk⟩ := hk
  have hhoused : n.Housed := (hn.all hroot).self
  obtain ⟨below, hreach, hbody⟩ := ran_body_of_shows hrun hroot hn hopen
  have hran := hbody.property_selection (write_growth setting below) hhoused hopen hk hguard
  rw [hbase] at hran
  obtain ⟨p', selection, q', -, hselection, -⟩ := hran
  obtain ⟨m, hm⟩ := selection_merges hselection hbranch
  refine ⟨m, hm, fun hf => ?_⟩
  -- The merged node is one of the nodes below, with a level to be written on.
  have hchild : m ∈ children n := mem_children_of_property hhoused hopen hk
    (mem_propertyNodes_of_merge hguard hbranch hbase hm)
  have hbelow := hreach.step hchild
  obtain ⟨l, rfl⟩ := hbelow.succ hrun
  have hopen' : m.isOpen = true := Node.isOpen_iff.2 ⟨hf, Node.merge_guards hm⟩
  have hrules : m.rules = base.rules ++ branch.rules := by
    rcases Node.merge_ok hm with ⟨-, rfl⟩ | ⟨-, -, kind, -, rfl⟩
    · cases hf
    · rfl
  rw [← hrules]
  exact hbelow.supported hrun hopen'

end Run

end Writing

namespace Compiler

/-- If a compilation succeeds, then the table has every rule of every open node that is shown. For a
conditional property, other than alternatives whose members are all conditional, every branch fits the
base, and unless the two give a forbidden node the table has the rules of both under their kind. -/
theorem compile_supported {c : Compiler ε} {raw : Value} {result : Result}
    (h : c.compile (.tree raw) = .ok result) :
    ∃ root, Node.ofValue c.options.maxDepth raw = .ok root ∧
      (∀ n, root.Shows n → n.isOpen = true → ∀ rule ∈ n.rules, c.rules.Supports n.kind rule) ∧
      ∀ name k, root.ShowsProperty name k → ¬(k.kind = .alternatives ∧ k.members = []) →
        ∃ base, Writing.guardBase k = some base ∧ base.rules = k.rules ∧
          ∀ guard ∈ k.guards, ∀ branch ∈ guard.branches,
            ∃ merged, base.merge branch = .ok merged ∧ (merged.isForbidden = false →
              ∀ rule ∈ base.rules ++ branch.rules, c.rules.Supports merged.kind rule) := by
  obtain ⟨root, hroot, h⟩ := Outcome.bind_ok.1 h
  have hread : Node.ofValue c.options.maxDepth raw = .ok root := Outcome.toWritten_ok.1 hroot
  have hhoused : root.All Node.Housed := Node.read_housed hread
  obtain ⟨top, progress, hrun, -⟩ := compileNode_ok.1 h
  refine ⟨root, hread, fun n hn hopen => ?_, fun name k hk hplain => ?_⟩
  · obtain ⟨below, hreach, -⟩ := Writing.ran_body_of_shows hrun hhoused hn hopen
    exact hreach.supported hrun hopen
  · have hbase : Writing.guardBase k = some { k with guards := [], name := none } := by
      rw [Writing.guardBase, if_neg (by simpa using hplain)]
    refine ⟨_, hbase, rfl, fun guard hguard branch hbranch => ?_⟩
    exact Writing.merged_supported hrun hhoused hk hguard hbranch hbase

/-- A number with a list of values, which takes the place of its rule, and a string with a rule of its
own and another one in a branch. The emitter of that one is no form. -/
theorem compile_supported_conditional :
    let description : Value := .map [(.str "type", .str "object"), (.str "keys", .map
      [(.str "size", .map [(.str "type", .str "number"), (.str "valids", .list [.int 1, .int 2]),
          (.str "rules", .list [.map [(.str "name", .str "min"), (.str "args", .list [.int 1])]])]),
        (.str "unit", .map [(.str "type", .str "string"),
          (.str "rules", .list [.map [(.str "name", .str "trim")]]),
          (.str "whens", .list [.map [(.str "ref", .str "size"), (.str "is", .int 1),
            (.str "then", .map [(.str "type", .str "any"),
              (.str "rules", .list [.map [(.str "name", .str "slug")]])])]])])])]
    let keys := Path.root.key "keys"
    let when := ((keys.key "unit").key "whens").index 0
    let size : Node :=
      { kind := .number, rules := [⟨"min", [.int 1]⟩], valids := [.int 1, .int 2]
        path := keys.key "size" }
    let branch : Node := { kind := .any, rules := [⟨"slug", []⟩], path := when.key "then" }
    let guard : Guard Node :=
      { reference := { segments := ["size"] }
        cases := [{ condition := Case.listedCondition [.int 1] (when.key "is")
                    branch := some branch }]
        path := when }
    let unit : Node :=
      { kind := .string, rules := [⟨"trim", []⟩], guards := [guard], path := keys.key "unit" }
    let root : Node := { kind := .object, keys := some [("size", size), ("unit", unit)] }
    let slug : FreeForm := ⟨fun target _ _ => .ok (target.chain ⟨"slug", []⟩)⟩
    let c : Compiler FreeForm := ⟨{}, Rulebook.builtin.register .string "slug" slug⟩
    (∃ result, c.compile (.tree description) = .ok result) ∧
      root.Shows size ∧ size.isOpen = true ∧ c.rules.Supports .number ⟨"min", [.int 1]⟩ ∧
      root.ShowsProperty "unit" unit ∧
      ∃ base merged, Writing.guardBase unit = some base ∧ base.merge branch = .ok merged ∧
        c.rules.Supports merged.kind ⟨"trim", []⟩ ∧ c.rules.Supports merged.kind ⟨"slug", []⟩ := by
  intro description keys when size branch guard unit root slug c
  have hsize : root.Shows size := .step .root rfl List.mem_cons_self
  have hunit : root.ShowsProperty "unit" unit := ⟨root, .root, rfl, by simp [root]⟩
  have hcompiles : ∃ result, c.compile (.tree description) = .ok result := ⟨_, rfl⟩
  refine ⟨hcompiles, hsize, rfl, ?_⟩
  obtain ⟨result, hrun⟩ := hcompiles
  obtain ⟨read, hread, hrules, hmerged⟩ := compile_supported hrun
  obtain rfl : root = read := Except.ok.inj hread
  obtain ⟨base, hbase, hbaseRules, hfits⟩ := hmerged "unit" unit hunit (by simp [unit])
  obtain ⟨merged, hmerge, hsupported⟩ :=
    hfits guard List.mem_cons_self branch List.mem_cons_self
  have hopen : merged.isForbidden = false := by
    cases hbase
    cases hmerge
    rfl
  refine ⟨hrules size hsize rfl _ List.mem_cons_self, hunit, base, merged, hbase, hmerge, ?_, ?_⟩
  · exact hsupported hopen _ (List.mem_append_left _ (hbaseRules ▸ List.mem_cons_self))
  · exact hsupported hopen _ (List.mem_append_right _ List.mem_cons_self)

end Compiler

end Schemata
