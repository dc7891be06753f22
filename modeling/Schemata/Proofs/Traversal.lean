import Schemata.Proofs.Rules
import Schemata.Writing.Node
/-!
How a contract carries over from one level of a description to the level above.

Writing a node hands other nodes to the writer of the level below: `children` lists them. If the
writer below keeps a contract on all of them, then writing the body of the node keeps it too, as long
as the contract allows what can go wrong at the node itself: its rules, its literals and the
references of its properties. A property of code travels along if code inherits it from its parts.

Component: the writer of nodes, function by function. Main results:
- `body_composed` — writing a body keeps a contract that the level below keeps;
- `level_composed` — and so does writing a node;
- `write_holds` — and writing all levels, from what is handed down.
-/

namespace Schemata

/-- The values that a node asks to be written as literals. -/
def Node.literals (node : Node) : List Value :=
  node.valids ++ node.allow ++ node.invalids ++ node.flags.default.toList

def Node.keyGuards (node : Node) : List (Guard Node) :=
  (node.keys.getD []).flatMap fun key => key.2.guards

namespace Writing

/-! ## The nodes below a node -/

/-- The node that a branch is written as, unless there is none or it does not fit its base. -/
def branchNodes (base branch : Option Node) : List Node :=
  match base, branch with
  | none, none => []
  | some node, none => [node]
  | none, some node => [node]
  | some base, some branch => (base.merge branch).toOption.toList

/-- The nodes that a conditional is written with: its conditions, and its branches. -/
def guardNodes (base : Option Node) (guard : Guard Node) : List Node :=
  guard.cases.map Case.condition
    ++ guard.cases.flatMap (fun case => branchNodes base case.branch)
    ++ branchNodes base guard.otherwise

/-- The nodes that a property is written with: itself, or those of its conditionals. -/
def propertyNodes (node : Node) : List Node :=
  match node.guards with
  | [] => [node]
  | guards => guards.flatMap (guardNodes (guardBase node))

/-- The nodes that writing a node hands to the level below. -/
def children (node : Node) : List Node :=
  if node.isForbidden then []
  else
    match node.guards, node.kind with
    | [], .object => (node.keys.getD []).flatMap fun key => propertyNodes key.2
    | [], .array => node.items
    | [], .alternatives => node.members
    | _, _ => []

section Requirements
variable {ε : Type} [Emitter ε]

/-- What a contract has to allow at a node: the failures of its rules and of its literals, and that a
reference of a property has no text. -/
structure Contract.Allows (C : Contract) (setting : Setting ε) (node : Node) : Prop where
  rules : ∀ target failure, applyRules setting node target = .error failure → C.failure failure
  literals : ∀ v ∈ node.literals, ∀ failure, v.toLiteral = .error failure → C.failure failure
  references : node.kind = .object → ∀ guard ∈ node.keyGuards, guard.reference.isShown = false →
    C.failure (.defect .uncountedDots)

/-- What the rules of a node are added to: a constructor by itself, unless the node is made of
properties or of members. -/
def TakesRules (node : Node) (target : Code) : Prop :=
  node.kind = .object ∨ node.kind = .alternatives ∨ ∃ callee args, target = .call callee args

/-- Adding the rules of a node to a schema gives a schema. -/
def RulesKeep (schema : Code → Prop) (setting : Setting ε) (node : Node) : Prop :=
  ∀ target code, TakesRules node target → schema target →
    applyRules setting node target = .ok code → schema code

/-- What a node itself brings into the code is of the right sort: its rules, its values, and the union
of its members in case there are none. -/
structure Brings (schema part : Code → Prop) (setting : Setting ε) (node : Node) : Prop where
  rules : RulesKeep schema setting node
  literals : ∀ v ∈ node.literals, part (.literal v)
  invalids : part (.exclusion node.invalids)
  members : node.kind = .alternatives → node.members = [] → schema (Code.union [])

theorem brings_of_sorted {schema part : Code → Prop} (h : Code.Sorted schema part)
    {setting : Setting ε} {node : Node} (hr : RulesKeep schema setting node) :
    Brings schema part setting node :=
  ⟨hr, fun v _ => h.literal v, h.exclusion _, fun _ _ => h.emptyUnion⟩

/-- The rules of a node keep what every emitter of the table keeps. -/
theorem rulesKeep_of_emitters {schema : Code → Prop} {setting : Setting ε}
    (h : ∀ kind name emitter, setting.rules.get? kind name = some emitter →
      ∀ target rule site code, schema target → Emitter.emit emitter target rule site = .ok code →
        schema code) (node : Node) : RulesKeep schema setting node := by
  intro target code _ ht hcode
  refine Outcome.foldlM_ok (fun before pair after hbefore hstep => ?_) ht hcode
  simp only [applyRule] at hstep
  split at hstep
  · rename_i emitter hemitter
    exact h _ _ emitter hemitter before _ _ after hbefore hstep
  · cases hstep

end Requirements

theorem rulesKeep_of_closed {good : Code → Prop} (h : Code.Closed good) (setting : Setting)
    (node : Node) : RulesKeep good setting node := by
  refine rulesKeep_of_emitters (fun _ _ form _ target rule site code ht hcode => ?_) node
  obtain ⟨calls, hcalls, rfl⟩ := RuleForm.emit_ok hcode
  exact h.chainAll ht ((RuleForm.calls_makes hcalls).closed h)

theorem brings_of_closed {good : Code → Prop} (h : Code.Closed good) (setting : Setting)
    (node : Node) : Brings good good setting node :=
  brings_of_sorted h.sorted (rulesKeep_of_closed h setting node)

open Contract

section Steps
variable {ε : Type} [Emitter ε] {C : Contract} {schema part : Code → Prop}
  (hgood : Code.Composed schema part) {setting : Setting ε}

/-! ## Values and modifiers -/

theorem ne_nil_of_length_eq {α β : Type} {as : List α} {bs : List β} (h : as.length = bs.length)
    (hbs : bs ≠ []) : as ≠ [] := by
  rintro rfl
  exact hbs (List.length_eq_zero_iff.1 h.symm)

theorem toLiteral_holds {v : Value}
    (h : ∀ failure, v.toLiteral = .error failure → C.failure failure) :
    C.Holds (fun _ => True) (lift v.toLiteral) :=
  holds_lift (fun _ _ => trivial) h

include hgood

theorem exactly_holds {v : Value} (hv : part (.literal v))
    (h : ∀ failure, v.toLiteral = .error failure → C.failure failure) :
    C.Holds schema (lift (exactly v)) := by
  simp only [exactly, lift_bind, lift_pure]
  exact holds_bind (toLiteral_holds h) fun _ _ => holds_pure (hgood.exactly hv)

theorem addPredicate_holds {target test : Code} {message : String} {feature : Feature}
    {path : Path} (ht : schema target) (htest : part test) :
    C.Holds schema (lift (addPredicate setting target test message feature path)) := by
  unfold addPredicate
  split
  · refine holds_pure (hgood.chain (by decide) ht ?_)
    intro a ha
    simp only [List.mem_cons, List.not_mem_nil, or_false] at ha
    rcases ha with rfl | rfl
    · exact htest
    · exact hgood.message message
  · exact holds_reject rfl

theorem refuseMissing_holds {target : Code} {path : Path} (ht : schema target) :
    C.Holds schema (lift (refuseMissing setting target path)) :=
  addPredicate_holds hgood ht (hgood.raw (by simp [Code.fixedTexts]))

omit hgood in
theorem applyRules_holds {node : Node} {target : Code} (hr : RulesKeep schema setting node)
    (hn : C.Allows setting node) (hstart : TakesRules node target) (ht : schema target) :
    C.Holds schema (lift (applyRules setting node target)) :=
  holds_lift (fun code => hr target code hstart ht) (hn.rules target)

theorem listed_holds {node : Node} (hb : Brings schema part setting node)
    (hn : C.Allows setting node) (hvalids : node.valids ≠ []) : C.Holds schema (listed node) := by
  have hmembers : C.Holds schema (do
      let members ← lift (node.valids.mapM exactly)
      return Code.union members) := by
    rw [lift_mapM]
    refine holds_bind (holds_mapM_length fun v hv => exactly_holds hgood ?_ ?_) fun members hm => ?_
    · exact hb.literals v (by simp [Node.literals, hv])
    · exact hn.literals v (by simp [Node.literals, hv])
    · exact holds_pure (hgood.union (ne_nil_of_length_eq hm.2 hvalids) hm.1)
  simp only [listed]
  refine holds_ite (fun _ => holds_reject_bind rfl) fun _ => ?_
  exact holds_ite (fun _ => holds_bind (holds_note) fun _ _ => hmembers) fun _ => hmembers

theorem refuseInvalid_holds {node : Node} {target : Code} (hb : Brings schema part setting node)
    (hn : C.Allows setting node) (ht : schema target) :
    C.Holds schema (lift (refuseInvalid setting node target)) := by
  simp only [refuseInvalid, lift_bind, lift_forM]
  refine holds_bind (holds_forM fun v hv => toLiteral_holds ?_) fun _ _ => ?_
  · exact hn.literals v (by simp [Node.literals, hv])
  · exact addPredicate_holds hgood ht hb.invalids

theorem acceptMore_holds {node : Node} {target : Code} (hb : Brings schema part setting node)
    (hn : C.Allows setting node) (ht : schema target) :
    C.Holds schema (lift (acceptMore node target)) := by
  simp only [acceptMore, lift_bind, lift_mapM, lift_pure]
  refine holds_bind (holds_mapM fun v hv => exactly_holds hgood ?_ ?_) fun members hm => ?_
  · exact hb.literals v (by simp [Node.literals, (List.mem_filter.1 hv).1])
  · exact hn.literals v (by simp [Node.literals, (List.mem_filter.1 hv).1])
  -- Null is left out of the union: it is accepted by a method.
  have hwider : schema (if (node.allow.filter fun v => !v.isNull).isEmpty then target
      else Code.union (target :: members)) := by
    split
    · exact ht
    · exact hgood.union (List.cons_ne_nil _ _) (by simpa [ht] using hm)
  refine holds_pure ?_
  split
  · exact hgood.chain_bare (by decide) hwider
  · exact hwider

theorem addDescription_closed {node : Node} {target : Code} (ht : schema target) :
    schema (addDescription node target) := by
  unfold addDescription
  split
  · split
    · exact ht
    · exact hgood.chain_one (by decide) ht (hgood.string _)
  · exact ht

omit hgood in
theorem noteLabel_holds {node : Node} : C.Holds (fun _ => True) (noteLabel node) := by
  unfold noteLabel
  split
  · exact holds_ite (fun _ => holds_pure trivial) fun _ => holds_note
  · exact holds_pure trivial

theorem complete_holds {node : Node} {target : Code} (hb : Brings schema part setting node)
    (hn : C.Allows setting node) (ht : schema target) : C.Holds schema (complete node target) := by
  refine holds_bind (acceptMore_holds hgood hb hn ht) fun code hc => ?_
  exact holds_bind noteLabel_holds fun _ _ => holds_pure (addDescription_closed hgood hc)

theorem primitive_holds {node : Node} {base : Code} (hb : Brings schema part setting node)
    (hn : C.Allows setting node) (hstart : TakesRules node base) (hbase : schema base) :
    C.Holds schema (primitive setting node base) := by
  -- What follows the list of values is the same whether there is one or not.
  have hinvalids : ∀ code, schema code → C.Holds schema (if node.invalids.isEmpty then
      pure code >>= fun code => complete node code
      else lift (refuseInvalid setting node code) >>= fun code => complete node code) :=
    fun code hc => holds_ite
      (fun _ => holds_bind (holds_pure hc) fun _ hc => complete_holds hgood hb hn hc)
      fun _ => holds_bind (refuseInvalid_holds hgood hb hn hc) fun _ hc =>
        complete_holds hgood hb hn hc
  simp only [primitive]
  refine holds_bind (applyRules_holds hb.rules hn hstart hbase) fun ruled hruled => ?_
  exact holds_ite (fun _ => holds_bind (holds_pure hruled) hinvalids)
    fun hvalids => holds_bind (listed_holds hgood hb hn (by simpa using hvalids)) hinvalids

theorem applyPresence_holds {node : Node} {target : Code} (ht : schema target) :
    C.Holds schema (lift (applyPresence setting node target)) := by
  unfold applyPresence
  split
  · exact holds_pure (hgood.chain_bare (by decide) ht)
  · split
    · exact refuseMissing_holds hgood ht
    · exact holds_pure ht
  · exact holds_pure ht

theorem applyDefault_holds {node : Node} {target : Code} (hb : Brings schema part setting node)
    (hn : C.Allows setting node) (ht : schema target) :
    C.Holds schema (lift (applyDefault node target)) := by
  unfold applyDefault
  split
  · exact holds_pure ht
  · rename_i v hv
    have hmem : v ∈ node.literals := by simp [Node.literals, hv]
    have hcode : C.Holds part (lift (defaultCode node v)) := by
      simp only [defaultCode, Writing.literal, lift_bind, lift_pure, bind_assoc]
      refine holds_bind (toLiteral_holds (hn.literals v hmem)) fun _ _ => ?_
      refine holds_bind (holds_pure (hb.literals v hmem)) fun written hw => holds_pure ?_
      split
      · exact hgood.date hw
      · exact hw
    rw [lift_bind]
    exact holds_bind hcode fun code hc => holds_pure (hgood.chain_one (by decide) ht hc)

theorem applyStrip_holds {node : Node} {target : Code} (ht : schema target) :
    C.Holds schema (lift (applyStrip setting node target)) := by
  unfold applyStrip
  split
  · split
    · exact holds_pure (hgood.chain_one (by decide) ht (hgood.raw (by simp [Code.fixedTexts])))
    · exact holds_reject rfl
  · exact holds_pure ht

theorem modify_holds {node : Node} {target : Code} (hb : Brings schema part setting node)
    (hn : C.Allows setting node) (ht : schema target) :
    C.Holds schema (lift (modify setting node target)) := by
  simp only [modify, lift_bind]
  refine holds_bind (applyPresence_holds hgood ht) fun code hc => ?_
  exact holds_bind (applyDefault_holds hgood hb hn hc) fun code hc => applyStrip_holds hgood hc

/-! ## Conditionals -/

variable {child : ChildWriter}

theorem field_composed {node : Node} (hc : C.Holds schema (child node)) :
    C.Holds schema (field setting child node) := by
  simp only [field]
  refine holds_bind hc fun code hcode => ?_
  refine holds_ite (fun _ => holds_pure hcode) fun _ => ?_
  refine holds_ite (fun _ => holds_pure (hgood.chain_bare (by decide) hcode)) fun _ => ?_
  exact holds_ite (fun _ => refuseMissing_holds hgood hcode) fun _ => holds_pure hcode

omit hgood in
theorem merge_refuses (base branch : Node) : Checked.Refuses [] (base.merge branch) := by
  unfold Node.merge
  split
  · exact Checked.refuses_ok _
  · split
    · exact Checked.refuses_unsupported rfl
    · exact Checked.refuses_malformed (by simp [Malformation.values])
    · exact Checked.refuses_ok _

omit hgood in
theorem holds_checked {α : Type} {p : α → Prop} {c : Checked α} (h : Checked.Refuses [] c)
    (hp : ∀ a, c = .ok a → p a) : C.Holds p (lift c.toWritten) := by
  refine holds_lift (fun a ha => hp a (Outcome.toWritten_ok.1 ha)) fun failure hf => ?_
  obtain ⟨e, he, rfl⟩ := h.rejected hf
  exact C.refusal e.cause e.path he

theorem branch_holds {base branch : Option Node}
    (hc : ∀ m ∈ branchNodes base branch, C.Holds schema (child m)) :
    C.Holds schema (Writing.branch setting child base branch) := by
  cases base with
  | none =>
    cases branch with
    | none => exact holds_pure hgood.absent
    | some node => exact field_composed hgood (hc node (by simp [branchNodes]))
  | some base =>
    cases branch with
    | none => exact field_composed hgood (hc base (by simp [branchNodes]))
    | some branch =>
      refine holds_bind (holds_checked (merge_refuses base branch) fun node h => h) ?_
      intro node hnode
      exact field_composed hgood (hc node (by simp [branchNodes, hnode, Except.toOption]))

theorem test_holds {segments : List String} {case : Case Node}
    (hc : C.Holds schema (child case.condition)) :
    C.Holds part (test child (Reference.accessChain segments) case) := by
  refine holds_bind hc fun code hcode => holds_pure (hgood.success (hgood.ofSchema ?_))
  refine hgood.chain_one (by decide) ?_ (hgood.access segments)
  split
  · exact hgood.chain_bare (by decide) hcode
  · exact hcode

omit hgood in
theorem access_holds {r : Reference} {name : String} {path : Path}
    (h : r.isShown = false → C.failure (.defect .uncountedDots)) :
    C.Holds (fun text => ∃ segments, text = Reference.accessChain segments)
      (lift (r.access name path)) := by
  unfold Reference.access
  split
  · exact holds_pure ⟨_, rfl⟩
  · split
    · exact holds_pure ⟨_, rfl⟩
    · split
      · exact holds_checked (Checked.refuses_unsupported rfl) fun _ h => by cases h
      · rename_i hshown
        refine holds_lift (fun _ h => by cases h) ?_
        rintro failure ⟨⟩
        exact h (by simpa using hshown)

/-- The branches of a selection are schemas of some sort, at least one of them, and its statement is
code of another sort. -/
structure Selection.All (schema part : Code → Prop) (s : Selection) : Prop where
  branches : ∀ b ∈ s.branches, schema b
  nonempty : s.branches ≠ []
  statement : part s.statement

theorem selection_holds {base : Option Node} {name : String} {guard : Guard Node}
    (hr : guard.reference.isShown = false → C.failure (.defect .uncountedDots))
    (hc : ∀ m ∈ guardNodes base guard, C.Holds schema (child m)) :
    C.Holds (Selection.All schema part) (selection setting child base name guard) := by
  have hcond : ∀ case ∈ guard.cases, C.Holds schema (child case.condition) := by
    intro case hcase
    refine hc _ (List.mem_append_left _ (List.mem_append_left _ ?_))
    exact List.mem_map_of_mem hcase
  have hbranch : ∀ case ∈ guard.cases, C.Holds schema (branch setting child base case.branch) := by
    intro case hcase
    refine branch_holds hgood fun m hm => hc m ?_
    refine List.mem_append_left _ (List.mem_append_right _ ?_)
    exact List.mem_flatMap.2 ⟨case, hcase, hm⟩
  have hotherwise : C.Holds schema (branch setting child base guard.otherwise) :=
    branch_holds hgood fun m hm => hc m (List.mem_append_right _ hm)
  refine holds_bind (access_holds hr) fun access haccess => ?_
  obtain ⟨segments, rfl⟩ := haccess
  refine holds_bind (holds_mapM fun case h => test_holds hgood (hcond case h)) fun tests ht => ?_
  refine holds_bind (holds_mapM hbranch) fun branches hb => ?_
  refine holds_bind hotherwise fun otherwise ho => ?_
  refine holds_bind holds_note fun _ _ => holds_pure ⟨?_, by simp, ?_⟩
  · intro b hmem
    rcases List.mem_append.1 hmem with hmem | hmem
    · exact hb b hmem
    · exact List.mem_singleton.1 hmem ▸ ho
  · refine hgood.check (hgood.choice ?_ (hgood.ofSchema ho))
    intro c hmem
    exact ⟨ht _ (List.of_mem_zip hmem).1, hgood.ofSchema (hb _ (List.of_mem_zip hmem).2)⟩

omit hgood in
theorem addSlot_closed {slots : List Code} {code : Code} (hs : ∀ s ∈ slots, schema s)
    (hc : schema code) : ∀ s ∈ addSlot slots code, schema s := by
  unfold addSlot
  split
  · exact hs
  · intro s hmem
    rcases List.mem_append.1 hmem with hmem | hmem
    · exact hs s hmem
    · exact List.mem_singleton.1 hmem ▸ hc

omit hgood in
theorem slots_closed {codes slots : List Code} (hs : ∀ s ∈ slots, schema s)
    (hc : ∀ c ∈ codes, schema c) : ∀ s ∈ codes.foldl addSlot slots, schema s := by
  induction codes generalizing slots with
  | nil => exact hs
  | cons c codes ih =>
    exact ih (addSlot_closed hs (hc c (by simp))) fun c' hc' => hc c' (by simp [hc'])

omit hgood in
theorem addSlot_ne_nil (slots : List Code) (code : Code) : addSlot slots code ≠ [] := by
  unfold addSlot
  split
  · rename_i hfound
    rintro rfl
    cases hfound
  · simp

omit hgood in
theorem slots_ne_nil {codes slots : List Code} (h : codes ≠ [] ∨ slots ≠ []) :
    codes.foldl addSlot slots ≠ [] := by
  induction codes generalizing slots with
  | nil => simpa using h
  | cons c codes ih => exact ih (.inr (addSlot_ne_nil slots c))

omit hgood in
/-- Every conditional has a branch for the case that no test holds, so that there is a slot. -/
theorem selections_ne_nil {selections : List Selection} (hne : selections ≠ [])
    (hs : ∀ s ∈ selections, Selection.All schema part s) :
    (selections.flatMap Selection.branches).foldl addSlot [] ≠ [] := by
  obtain ⟨s, hmem⟩ := List.exists_mem_of_ne_nil _ hne
  refine slots_ne_nil (.inl fun hnone => ?_)
  exact (hs s hmem).nonempty (List.flatMap_eq_nil_iff.1 hnone s hmem)

theorem guardedField_holds {name : String} {node : Node} {first : Guard Node}
    (hguards : node.guards ≠ [])
    (hr : ∀ guard ∈ node.guards, guard.reference.isShown = false →
      C.failure (.defect .uncountedDots))
    (hc : ∀ m ∈ node.guards.flatMap (guardNodes (guardBase node)), C.Holds schema (child m)) :
    C.Holds (fun r => schema r.1 ∧ ∀ s ∈ r.2, part s)
      (guardedField setting child name node first) := by
  simp only [guardedField]
  refine holds_ite (fun _ => holds_reject_bind rfl) fun _ => ?_
  have hselections : C.Holds (fun selections => (∀ s ∈ selections, Selection.All schema part s) ∧
      selections.length = node.guards.length)
      (node.guards.mapM (selection setting child (guardBase node) name)) := by
    refine holds_mapM_length fun guard hg => selection_holds hgood (hr guard hg) fun m hm => ?_
    exact hc m (List.mem_flatMap.2 ⟨guard, hg, hm⟩)
  refine holds_bind hselections fun selections hs => ?_
  have hslots := selections_ne_nil (ne_nil_of_length_eq hs.2 hguards) hs.1
  refine holds_pure ⟨hgood.union hslots (slots_closed (by simp) ?_), ?_⟩
  · intro c hmem
    obtain ⟨s, hmem, hc⟩ := List.mem_flatMap.1 hmem
    exact (hs.1 s hmem).branches c hc
  · intro c hmem
    obtain ⟨s, hsel, rfl⟩ := List.mem_map.1 hmem
    exact (hs.1 s hsel).statement

/-! ## Nodes -/

/-- The code of a property is a schema of some sort, and its statements are code of another. -/
def Property.All (schema part : Code → Prop) (p : Property) : Prop :=
  schema p.code ∧ ∀ s ∈ p.statements, part s

theorem property_holds {name : String} {node : Node}
    (hr : ∀ guard ∈ node.guards, guard.reference.isShown = false →
      C.failure (.defect .uncountedDots))
    (hc : ∀ m ∈ propertyNodes node, C.Holds schema (child m)) :
    C.Holds (Property.All schema part) (property setting child name node) := by
  unfold property
  unfold propertyNodes at hc
  cases hguards : node.guards with
  | nil =>
    rw [hguards] at hc
    refine holds_bind (field_composed hgood (hc node (by simp))) fun code hcode => ?_
    exact holds_pure ⟨hcode, by simp⟩
  | cons first rest =>
    rw [hguards] at hc
    refine holds_bind (guardedField_holds hgood (by simp [hguards]) hr (by rw [hguards]; exact hc)) ?_
    rintro ⟨code, statements⟩ h
    exact holds_pure h

theorem applyUnknown_closed {node : Node} {a : Code} (ha : part a) :
    schema (applyUnknown setting node (.call "z.object" [a])) := by
  unfold applyUnknown
  split
  · exact hgood.policy (by decide) ha
  · split
    · exact hgood.policy (by decide) ha
    · split
      · exact hgood.policy (by decide) ha
      · exact hgood.call_one (by decide) (by decide) ha

theorem applyChecks_closed {statements : List Code} {target : Code}
    (hs : ∀ s ∈ statements, part s) (ht : schema target) :
    schema (applyChecks statements target) := by
  unfold applyChecks
  split
  · exact ht
  · exact hgood.chain_one (by decide) ht (hgood.checks hs)

theorem object_holds {node : Node} (hkind : node.kind = .object)
    (hb : Brings schema part setting node) (hn : C.Allows setting node)
    (hc : ∀ m ∈ (node.keys.getD []).flatMap fun key => propertyNodes key.2,
      C.Holds schema (child m)) : C.Holds schema (object setting child node) := by
  refine holds_bind (holds_mapM fun key hkey => property_holds hgood ?_ fun m hm => ?_) ?_
  · exact fun guard hg => hn.references hkind guard (List.mem_flatMap.2 ⟨key, hkey, hg⟩)
  · exact hc m (List.mem_flatMap.2 ⟨key, hkey, hm⟩)
  intro properties hp
  have hlist : part (.object (properties.map fun p => (p.name, p.code))) := by
    refine hgood.object fun p hmem => ?_
    obtain ⟨property, hproperty, rfl⟩ := List.mem_map.1 hmem
    exact hgood.ofSchema (hp property hproperty).1
  refine holds_bind (applyRules_holds hb.rules hn (.inl hkind) (applyUnknown_closed hgood hlist)) ?_
  intro code hcode
  refine holds_pure (applyChecks_closed hgood (fun s hmem => ?_) hcode)
  obtain ⟨p, hmem, hs⟩ := List.mem_flatMap.1 hmem
  exact (hp p hmem).2 s hs

theorem array_holds {node : Node} (hb : Brings schema part setting node)
    (hn : C.Allows setting node)
    (hc : ∀ m ∈ node.items, C.Holds schema (child m)) :
    C.Holds schema (array setting child node) := by
  refine holds_bind (holds_mapM hc) fun items hi => ?_
  refine applyRules_holds hb.rules hn (.inr (.inr ⟨_, _, rfl⟩)) ?_
  refine hgood.call_one (by decide) (by decide) (hgood.ofSchema ?_)
  split
  · exact hgood.call (by decide) (by decide) (by simp)
  · rename_i hitems
    exact hgood.union (by simpa using hitems) hi

theorem alternatives_holds {node : Node} (hkind : node.kind = .alternatives)
    (hb : Brings schema part setting node) (hn : C.Allows setting node)
    (hc : ∀ m ∈ node.members, C.Holds schema (child m)) :
    C.Holds schema (alternatives setting child node) := by
  refine holds_bind (holds_mapM_length hc) fun members hm => ?_
  refine applyRules_holds hb.rules hn (.inr (.inl hkind)) ?_
  by_cases hnone : node.members = []
  · have hempty : members = [] := by simpa [hnone] using hm.2
    rw [hempty]
    exact hb.members hkind hnone
  · exact hgood.union (ne_nil_of_length_eq hm.2 hnone) hm.1

theorem completeComposite_holds {node : Node} {target : Code} (hb : Brings schema part setting node)
    (hn : C.Allows setting node) (ht : schema target) :
    C.Holds schema (completeComposite node target) := by
  simp only [completeComposite]
  exact holds_ite (fun _ => holds_reject_bind rfl) fun _ => complete_holds hgood hb hn ht

/-- Writing the body of a node keeps a contract that the level below keeps. -/
theorem body_composed {node : Node} (hf : node.isForbidden = false)
    (hb : Brings schema part setting node) (hn : C.Allows setting node)
    (hc : ∀ m ∈ children node, C.Holds schema (child m)) :
    C.Holds schema (body setting child node) := by
  unfold body
  unfold children at hc
  rw [if_neg (by simp [hf])] at hc
  cases hguards : node.guards with
  | cons guard rest => exact holds_reject rfl
  | nil =>
    simp only [hguards] at hc
    cases hkind : node.kind
    case object =>
      rw [hkind] at hc
      exact holds_bind (object_holds hgood hkind hb hn hc) fun _ =>
        completeComposite_holds hgood hb hn
    case array =>
      rw [hkind] at hc
      exact holds_bind (array_holds hgood hb hn hc) fun _ => completeComposite_holds hgood hb hn
    case alternatives =>
      rw [hkind] at hc
      exact holds_bind (alternatives_holds hgood hkind hb hn hc) fun _ =>
        completeComposite_holds hgood hb hn
    case forbidden => exact holds_pure hgood.absent
    -- The kinds that are left have a constructor and no children.
    all_goals
      have hbase := hgood.base node.kind (by rw [hkind]; rfl)
      exact primitive_holds hgood hb hn (.inr (.inr ⟨_, _, rfl⟩)) hbase

/-- Writing a node keeps a contract that the level below keeps, if declaring the node does. A node
that is forbidden or has conditionals of its own is not written, so that nothing is asked of it. -/
theorem level_composed {node : Node}
    (hb : node.isForbidden = false → node.guards = [] → Brings schema part setting node)
    (hn : node.isForbidden = false → node.guards = [] → C.Allows setting node)
    (hc : ∀ m ∈ children node, C.Holds schema (child m))
    (hd : ∀ code, schema code → C.Holds schema (named node code)) :
    C.Holds schema (level setting child node) := by
  unfold level
  split
  · exact holds_pure hgood.absent
  · rename_i hf
    replace hf : node.isForbidden = false := by simpa using hf
    cases hguards : node.guards with
    | cons guard rest =>
      -- Conditionals are refused before rules and literals are looked at.
      simp only [body, hguards]
      exact holds_reject_bind rfl
    | nil =>
      have hb := hb hf hguards
      have hn := hn hf hguards
      refine holds_bind (body_composed hgood hf hb hn hc) fun code hcode => ?_
      exact holds_bind (hd code hcode) fun code hcode => modify_holds hgood hb hn hcode

end Steps

section Sorted
variable {ε : Type} [Emitter ε] {C : Contract} {schema part : Code → Prop}
  (hgood : Code.Sorted schema part) {setting : Setting ε} {child : ChildWriter} {node : Node}
include hgood

theorem field_holds (hc : C.Holds schema (child node)) :
    C.Holds schema (field setting child node) :=
  field_composed hgood.toComposed hc

/-- Writing a node keeps a contract that the level below keeps, if declaring the node does. -/
theorem level_sorted (hr : RulesKeep schema setting node)
    (hn : node.isForbidden = false → node.guards = [] → C.Allows setting node)
    (hc : ∀ m ∈ children node, C.Holds schema (child m))
    (hd : ∀ code, schema code → C.Holds schema (named node code)) :
    C.Holds schema (level setting child node) :=
  level_composed hgood.toComposed (fun _ _ => brings_of_sorted hgood hr) hn hc hd

end Sorted

section Closed
variable {C : Contract} {good : Code → Prop} (hgood : Code.Closed good) {setting : Setting}
  {child : ChildWriter} {node : Node}
include hgood

/-- Writing the body of a node keeps a contract that the level below keeps. -/
theorem body_holds (hf : node.isForbidden = false) (hn : C.Allows setting node)
    (hc : ∀ m ∈ children node, C.Holds good (child m)) : C.Holds good (body setting child node) :=
  body_composed hgood.composed hf (brings_of_closed hgood setting node) hn hc

end Closed

/-! ## Declarations -/

/-- A declaration is found again, or it is added at the end. -/
theorem declare_ok {name : String} {body code : Code} {path : Path} {p q : Progress}
    (h : declare name body path p = .ok (code, q)) :
    code = .name name ∧
      (q = p ∧ (∃ first, p.declared.find? name = some first ∧ first.body.text = body.text) ∨
        p.declared.find? name = none ∧
          q = { p with declared := ⟨p.declared.entries ++ [⟨name, body, path⟩]⟩ }) := by
  simp only [declare, Declarations.declare] at h
  cases hfind : p.declared.find? name with
  | none =>
    rw [hfind] at h
    cases h
    exact ⟨rfl, .inr ⟨rfl, rfl⟩⟩
  | some first =>
    simp only [hfind] at h
    by_cases htext : first.body.text = body.text
    · rw [if_pos htext] at h
      cases h
      exact ⟨rfl, .inl ⟨rfl, first, rfl, htext⟩⟩
    · rw [if_neg htext] at h
      cases h

/-- The only failure of a declaration is a conflict. -/
theorem declare_error {name : String} {body : Code} {path : Path} {p : Progress} {failure : Failure}
    (h : declare name body path p = .error failure) :
    ∃ first, failure = .rejected ⟨.conflict name first, path⟩ := by
  simp only [declare, Declarations.declare] at h
  cases hfind : p.declared.find? name with
  | none =>
    rw [hfind] at h
    cases h
  | some first =>
    simp only [hfind] at h
    by_cases htext : first.body.text = body.text
    · rw [if_pos htext] at h
      cases h
    · rw [if_neg htext] at h
      cases h
      exact ⟨_, rfl⟩

/-- Declaring a node keeps every contract that lets declarations be added. -/
theorem named_holds {C : Contract} {node : Node} {code : Code}
    (hadd : ∀ p entry, C.change p { p with declared := ⟨p.declared.entries ++ [entry]⟩ }) :
    C.Holds (fun _ => True) (named node code) := by
  unfold named
  split
  · refine ⟨fun p a q h => ⟨trivial, ?_⟩, fun p failure h => ?_⟩
    · obtain ⟨-, ⟨rfl, -⟩ | ⟨-, rfl⟩⟩ := declare_ok h
      · exact C.refl _
      · exact hadd p _
    · obtain ⟨first, rfl⟩ := declare_error h
      exact C.refusal _ _ rfl
  · exact holds_pure trivial

/-! ## Whole nodes -/

section Whole
variable {ε : Type} [Emitter ε] {C : Contract} {setting : Setting ε}

theorem write_zero_holds {good : Code → Prop} {node : Node}
    (h : C.failure (.rejected ⟨.tooDeep setting.options.maxDepth, node.path⟩)) :
    C.Holds good (write setting 0 node) := by
  constructor
  · rintro p code q ⟨⟩
  · rintro p failure ⟨⟩
    exact h

/-- What holds of a node and is handed down to the nodes below it lets writing keep a contract, if the
contract allows for it what can go wrong at a single node. -/
theorem write_holds {I : Nat → Node → Prop}
    (hzero : ∀ n, I 0 n → C.failure (.rejected ⟨.tooDeep setting.options.maxDepth, n.path⟩))
    (hstep : ∀ l n m, I (l + 1) n → m ∈ children n → I l m)
    (hallows : ∀ l n, I (l + 1) n → n.isForbidden = false → n.guards = [] → C.Allows setting n)
    (hadd : ∀ p entry, C.change p { p with declared := ⟨p.declared.entries ++ [entry]⟩ })
    {l : Nat} {n : Node} (h : I l n) : C.Holds (fun _ => True) (write setting l n) := by
  induction l generalizing n with
  | zero => exact write_zero_holds (hzero n h)
  | succ l ih =>
    refine level_sorted Code.Closed.trivial.sorted (fun _ _ _ _ _ => trivial) (hallows l n h)
      (fun m hm => ?_) fun code _ => ?_
    · exact ih (hstep l n m h hm)
    · exact named_holds hadd

end Whole

end Writing

end Schemata
