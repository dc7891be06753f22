import Schemata.Compiler
import Schemata.Proofs.Traversal
/-!
The nodes that writing reaches, and what a run that succeeds says about them.

Writing a node reaches the nodes below it, each with one level less. If the run succeeds, then every
node that was reached has been written in between, and nothing that was declared or noted on the way
is lost again.

Component: the writer of nodes, `Writing.write`, and its runs. Main results:
- `body_covers` — writing the body of a node writes all nodes below it;
- `body_applies` — and applies all its rules;
- `Reaches.ran` — in a run that succeeds every node that is reached has been written.
-/

namespace Schemata

namespace Writing

/-- The nodes that writing a node with a number of levels comes to, each with the levels that are
left for it. -/
inductive Reaches (levels : Nat) (root : Node) : Nat → Node → Prop where
  | root : Reaches levels root levels root
  | step {l : Nat} {n m : Node} (h : Reaches levels root (l + 1) n) (hm : m ∈ children n) :
    Reaches levels root l m

/-! ## Progress only grows -/

/-- One state of progress comes before another: declarations and notes are only added. -/
def Before (p q : Progress) : Prop :=
  p.declared.entries <+: q.declared.entries ∧ p.notes <+: q.notes

theorem before_refl (p : Progress) : Before p p := ⟨List.prefix_refl _, List.prefix_refl _⟩

theorem Before.trans {p q r : Progress} (hpq : Before p q) (hqr : Before q r) : Before p r :=
  ⟨hpq.1.trans hqr.1, hpq.2.trans hqr.2⟩

/-- Steps may only add to the progress, and may fail in any way. -/
def growth : Contract where
  change := Before
  failure := fun _ => True
  refl := before_refl
  trans := Before.trans
  note := fun _ _ => ⟨List.prefix_refl _, List.prefix_append _ _⟩
  refusal := fun _ _ _ => trivial

theorem growth_pure {α : Type} (a : α) : growth.Holds (fun _ => True) (pure a) :=
  Contract.holds_pure trivial

theorem growth_adds (p : Progress) (entry : Declaration) :
    growth.change p { p with declared := ⟨p.declared.entries ++ [entry]⟩ } :=
  ⟨List.prefix_append _ _, List.prefix_refl _⟩

theorem named_growth (node : Node) (code : Code) :
    growth.Holds (fun _ => True) (named node code) := named_holds growth_adds

section Emitters
variable {ε : Type} [Emitter ε]

theorem growth_allows (setting : Setting ε) (node : Node) : growth.Allows setting node :=
  ⟨fun _ _ _ => trivial, fun _ _ _ _ => trivial, fun _ _ _ _ => trivial⟩

theorem brings_any (setting : Setting ε) (node : Node) :
    Brings (fun _ => True) (fun _ => True) setting node :=
  brings_of_sorted Code.Closed.trivial.sorted fun _ _ _ _ _ => trivial

theorem write_growth (setting : Setting ε) (levels : Nat) (node : Node) :
    growth.Holds (fun _ => True) (write setting levels node) :=
  write_holds (I := fun _ _ => True) (fun _ _ => trivial) (fun _ _ _ _ _ => trivial)
    (fun _ n _ _ _ => growth_allows setting n) growth_adds trivial

theorem applyRules_growth (setting : Setting ε) (node : Node) (target : Code) :
    growth.Holds (fun _ => True) (lift (applyRules setting node target)) :=
  Contract.holds_lift (fun _ _ => trivial) fun _ _ => trivial

theorem completeComposite_growth (setting : Setting ε) (node : Node) (target : Code) :
    growth.Holds (fun _ => True) (completeComposite node target) :=
  completeComposite_holds Code.Closed.trivial.composed
    (brings_any setting node) (growth_allows setting node) trivial

theorem modify_growth (setting : Setting ε) (node : Node) (target : Code) :
    growth.Holds (fun _ => True) (lift (modify setting node target)) :=
  modify_holds Code.Closed.trivial.composed (brings_any setting node) (growth_allows setting node)
    trivial

end Emitters

/-! ## What runs inside a run -/

/-- A step has run, with success, somewhere between two states of progress. -/
def Ran {α : Type} (x : Write α) (p q : Progress) : Prop :=
  ∃ p' a q', Before p p' ∧ x p' = .ok (a, q') ∧ Before q' q

theorem Ran.widen {α : Type} {x : Write α} {p p' q q' : Progress} (h : Ran x p' q')
    (hp : Before p p') (hq : Before q' q) : Ran x p q := by
  obtain ⟨p₁, a, q₁, hp₁, hx, hq₁⟩ := h
  exact ⟨p₁, a, q₁, hp.trans hp₁, hx, hq₁.trans hq⟩

section Composed
variable {α β : Type} {p q : Progress}

/-- A composed step that has run has run its first part. -/
theorem Ran.first {x : Write α} {f : α → Write β} (h : Ran (x >>= f) p q)
    (hf : ∀ a, growth.Holds (fun _ => True) (f a)) : Ran x p q := by
  obtain ⟨p', b, q', hp, hrun, hq⟩ := h
  obtain ⟨a, r, hx, hfa⟩ := bind_ok.1 hrun
  have hgrows : Before r q' := ((hf a).1 r b q' hfa).2
  exact ⟨p', a, r, hp, hx, hgrows.trans hq⟩

/-- A composed step that has run has run what follows its first part. -/
theorem Ran.second {x : Write α} {f : α → Write β} (h : Ran (x >>= f) p q)
    (hx : growth.Holds (fun _ => True) x) : ∃ a, Ran (f a) p q := by
  obtain ⟨p', b, q', hp, hrun, hq⟩ := h
  obtain ⟨a, r, hxa, hfa⟩ := bind_ok.1 hrun
  have hgrows : Before p' r := (hx.1 p' a r hxa).2
  exact ⟨a, r, b, q', hp.trans hgrows, hfa, hq⟩

/-- A sequence of steps that has run has run each of them. -/
theorem Ran.each {f : α → Write β} {l : List α} (h : Ran (l.mapM f) p q)
    (hf : ∀ a, growth.Holds (fun _ => True) (f a)) : ∀ a ∈ l, Ran (f a) p q := by
  induction l with
  | nil => simp
  | cons a l ih =>
    rw [List.mapM_cons] at h
    have hrest : ∀ b, growth.Holds (fun _ => True) (l.mapM f >>= fun bs => pure (b :: bs)) := by
      intro b
      apply Contract.holds_bind (Contract.holds_mapM fun a' _ => hf a')
      exact fun _ _ => growth_pure _
    have hlast : ∀ (b : β) (bs : List β), growth.Holds (fun _ => True) (pure (b :: bs)) :=
      fun b bs => growth_pure (b :: bs)
    obtain ⟨b, hb⟩ := h.second (hf a)
    exact List.forall_mem_cons.2 ⟨h.first hrest, ih (hb.first (hlast b))⟩

end Composed

/-- Every run of a step that succeeds has written all of some nodes on the way. -/
def Covers {α : Type} (child : ChildWriter) (nodes : List Node) (x : Write α) : Prop :=
  ∀ p a q, x p = .ok (a, q) → Before p q ∧ ∀ m ∈ nodes, Ran (child m) p q

section Covering
variable {α β : Type} {child : ChildWriter}

theorem covers_nil {x : Write α} (h : growth.Holds (fun _ => True) x) :
    Covers child [] x := fun p a q hx => ⟨(h.1 p a q hx).2, by simp⟩

theorem covers_bind {nodes rest : List Node} {x : Write α} {f : α → Write β}
    (hx : Covers child nodes x) (hf : ∀ a, Covers child rest (f a)) :
    Covers child (nodes ++ rest) (x >>= f) := by
  intro p b r h
  obtain ⟨a, q, hxa, hfa⟩ := bind_ok.1 h
  obtain ⟨hpq, hnodes⟩ := hx p a q hxa
  obtain ⟨hqr, hrest⟩ := hf a q b r hfa
  refine ⟨hpq.trans hqr, fun m hm => ?_⟩
  rcases List.mem_append.1 hm with hm | hm
  · exact (hnodes m hm).widen (before_refl p) hqr
  · exact (hrest m hm).widen hpq (before_refl r)

/-- Whatever follows, the nodes written at the start have been written. -/
theorem covers_then {nodes : List Node} {x : Write α} {f : α → Write β}
    (hx : Covers child nodes x) (hf : ∀ a, growth.Holds (fun _ => True) (f a)) :
    Covers child nodes (x >>= f) := by
  have h := covers_bind hx fun a => covers_nil (hf a)
  rwa [List.append_nil] at h

/-- Whatever comes first, the nodes written afterwards have been written. -/
theorem covers_after {nodes : List Node} {x : Write α} {f : α → Write β}
    (hx : growth.Holds (fun _ => True) x) (hf : ∀ a, Covers child nodes (f a)) :
    Covers child nodes (x >>= f) := covers_bind (covers_nil hx) hf

theorem covers_mapM {nodes : α → List Node} {f : α → Write β} {l : List α}
    (h : ∀ a ∈ l, Covers child (nodes a) (f a)) : Covers child (l.flatMap nodes) (l.mapM f) := by
  induction l with
  | nil => exact covers_nil (growth_pure [])
  | cons a l ih =>
    rw [List.mapM_cons, List.flatMap_cons]
    refine covers_bind (h a (by simp)) fun b => ?_
    exact covers_then (ih fun a' ha' => h a' (by simp [ha'])) fun bs =>
      growth_pure (b :: bs)

/-! ## Every node below is written -/

variable {ε : Type} [Emitter ε] {setting : Setting ε}
  (hc : ∀ m, growth.Holds (fun _ => True) (child m))

include hc

theorem child_covers (m : Node) : Covers child [m] (child m) := by
  intro p a q h
  refine ⟨((hc m).1 p a q h).2, fun m' hm => ?_⟩
  rw [List.mem_singleton.1 hm]
  exact ⟨p, a, q, before_refl p, h, before_refl q⟩

theorem field_covers (node : Node) : Covers child [node] (field setting child node) := by
  refine covers_then (child_covers hc node) fun code => ?_
  refine Contract.holds_ite (fun _ => growth_pure code) fun _ => ?_
  refine Contract.holds_ite (fun _ => growth_pure _) fun _ => ?_
  refine Contract.holds_ite (fun _ => ?_) fun _ => growth_pure code
  exact refuseMissing_holds Code.Closed.trivial.composed trivial

theorem branch_covers (base branch : Option Node) :
    Covers child (branchNodes base branch) (Writing.branch setting child base branch) := by
  cases base with
  | none =>
    cases branch with
    | none => exact covers_nil (growth_pure Code.absent)
    | some node => exact field_covers hc node
  | some base =>
    cases branch with
    | none => exact field_covers hc base
    | some branch =>
      cases hmerge : base.merge branch with
      | ok node =>
        simp only [branchNodes, Writing.branch, hmerge]
        exact field_covers hc node
      | error e =>
        -- A branch that does not fit its base ends the run.
        intro p a q h
        simp only [Writing.branch, hmerge] at h
        cases h

theorem test_covers (access : String) (case : Case Node) :
    Covers child [case.condition] (test child access case) :=
  covers_then (child_covers hc case.condition) fun _ => growth_pure _

theorem selection_covers (base : Option Node) (name : String) (guard : Guard Node) :
    Covers child (guardNodes base guard) (selection setting child base name guard) := by
  have htests : ∀ access, Covers child (guard.cases.map Case.condition)
      (guard.cases.mapM (test child access)) := by
    intro access
    rw [List.map_eq_flatMap]
    exact covers_mapM fun case _ => test_covers hc access case
  have hbranches : Covers child (guard.cases.flatMap fun case => branchNodes base case.branch)
      (guard.cases.mapM fun case => branch setting child base case.branch) :=
    covers_mapM fun case _ => branch_covers hc base case.branch
  have haccess : growth.Holds (fun _ => True) (lift (guard.reference.access name guard.path)) :=
    (access_holds fun _ => trivial).mono fun _ _ => trivial
  -- Conditions, branches and the last branch are listed in the order in which they are written.
  rw [guardNodes, List.append_assoc]
  refine covers_after haccess fun access => covers_bind (htests access) fun tests => ?_
  refine covers_bind hbranches fun branches => ?_
  refine covers_then (branch_covers hc base guard.otherwise) fun otherwise => ?_
  exact Contract.holds_bind Contract.holds_note fun _ _ => growth_pure _

theorem property_covers (name : String) (node : Node) :
    Covers child (propertyNodes node) (property setting child name node) := by
  unfold property propertyNodes
  cases hguards : node.guards with
  | nil => exact covers_then (field_covers hc node) fun _ => growth_pure _
  | cons first rest =>
    refine covers_then ?_ fun _ => growth_pure _
    have hselections : Covers child (node.guards.flatMap (guardNodes (guardBase node)))
        (node.guards.mapM (selection setting child (guardBase node) name)) :=
      covers_mapM fun guard _ => selection_covers hc (guardBase node) name guard
    rw [hguards] at hselections
    simp only [guardedField, hguards]
    split
    · rintro p a q ⟨⟩
    · exact covers_then hselections fun _ => growth_pure _

theorem object_covers (node : Node) :
    Covers child ((node.keys.getD []).flatMap fun key => propertyNodes key.2)
      (object setting child node) := by
  refine covers_then (covers_mapM fun key _ => property_covers hc key.1 key.2) fun properties => ?_
  exact Contract.holds_bind (applyRules_growth setting node _) fun _ _ => growth_pure _

theorem array_covers (node : Node) : Covers child node.items (array setting child node) := by
  have hitems : Covers child (node.items.flatMap fun m => [m]) (node.items.mapM child) :=
    covers_mapM fun m _ => child_covers hc m
  rw [List.flatMap_singleton'] at hitems
  exact covers_then hitems fun _ => applyRules_growth setting node _

theorem alternatives_covers (node : Node) :
    Covers child node.members (alternatives setting child node) := by
  have hmembers : Covers child (node.members.flatMap fun m => [m]) (node.members.mapM child) :=
    covers_mapM fun m _ => child_covers hc m
  rw [List.flatMap_singleton'] at hmembers
  exact covers_then hmembers fun _ => applyRules_growth setting node _

/-- Writing the body of a node writes all nodes below it. -/
theorem body_covers {node : Node} (hf : node.isForbidden = false) :
    Covers child (children node) (body setting child node) := by
  have hgrowth : growth.Holds (fun _ => True) (body setting child node) :=
    body_composed Code.Closed.trivial.composed hf (brings_any setting node)
      (growth_allows setting node) fun m _ => hc m
  have hcomplete := completeComposite_growth setting node
  simp only [children, hf, Bool.false_eq_true, if_false]
  cases hguards : node.guards with
  | cons guard rest => exact covers_nil hgrowth
  | nil =>
    cases hkind : node.kind
    case object =>
      simp only [body, hguards, hkind]
      exact covers_then (object_covers hc node) hcomplete
    case array =>
      simp only [body, hguards, hkind]
      exact covers_then (array_covers hc node) hcomplete
    case alternatives =>
      simp only [body, hguards, hkind]
      exact covers_then (alternatives_covers hc node) hcomplete
    all_goals exact covers_nil hgrowth

theorem level_covers (node : Node) : Covers child (children node) (level setting child node) := by
  unfold level
  split
  · rename_i hf
    rw [children, if_pos hf]
    exact covers_nil (growth_pure Code.absent)
  · rename_i hf
    refine covers_then (body_covers hc (by simpa using hf)) fun code => ?_
    exact Contract.holds_bind (named_growth node code) fun _ _ => modify_growth setting node _

end Covering

/-! ## Every rule is applied -/

section Rules
variable {ε : Type} [Emitter ε] {setting : Setting ε} {child : ChildWriter} {n : Node}
  {p q : Progress} {code : Code}

theorem object_applies (h : object setting child n p = .ok (code, q)) :
    ∃ target ruled, applyRules setting n target = .ok ruled := by
  obtain ⟨properties, p₁, -, h⟩ := bind_ok.1 h
  obtain ⟨ruled, p₂, hrules, -⟩ := bind_ok.1 h
  exact ⟨_, ruled, (lift_ok.1 hrules).1⟩

theorem array_applies (h : array setting child n p = .ok (code, q)) :
    ∃ target ruled, applyRules setting n target = .ok ruled := by
  obtain ⟨items, p₁, -, hrules⟩ := bind_ok.1 h
  exact ⟨_, code, (lift_ok.1 hrules).1⟩

theorem alternatives_applies (h : alternatives setting child n p = .ok (code, q)) :
    ∃ target ruled, applyRules setting n target = .ok ruled := by
  obtain ⟨members, p₁, -, hrules⟩ := bind_ok.1 h
  exact ⟨_, code, (lift_ok.1 hrules).1⟩

/-- The rules of a node without children are applied first, also if a list of values takes their
place. -/
theorem primitive_applies {base : Code} (h : primitive setting n base p = .ok (code, q)) :
    ∃ ruled, applyRules setting n base = .ok ruled := by
  obtain ⟨ruled, p₁, hrules, -⟩ := bind_ok.1 h
  exact ⟨ruled, (lift_ok.1 hrules).1⟩

/-- Writing the body of a node applies all its rules. -/
theorem body_applies (hf : n.isForbidden = false) (hguards : n.guards = [])
    (h : body setting child n p = .ok (code, q)) :
    ∃ target ruled, applyRules setting n target = .ok ruled := by
  unfold body at h
  rw [hguards] at h
  cases hkind : n.kind
  case forbidden => simp [Node.isForbidden, hkind] at hf
  case object =>
    simp only [hkind] at h
    obtain ⟨code', p₁, hobject, -⟩ := bind_ok.1 h
    exact object_applies hobject
  case array =>
    simp only [hkind] at h
    obtain ⟨code', p₁, harray, -⟩ := bind_ok.1 h
    exact array_applies harray
  case alternatives =>
    simp only [hkind] at h
    obtain ⟨code', p₁, halternatives, -⟩ := bind_ok.1 h
    exact alternatives_applies halternatives
  -- The kinds that are left have a constructor and no children.
  all_goals
    simp only [hkind, Code.base?] at h
    exact ⟨_, primitive_applies h⟩

end Rules

/-- If a node is written with success, then so is every node it reaches, in between. -/
theorem Reaches.ran {ε : Type} [Emitter ε] {setting : Setting ε} {levels l : Nat}
    {root n : Node} {p q : Progress} {a : Code} (h : Reaches levels root l n)
    (hrun : write setting levels root p = .ok (a, q)) :
    Ran (write setting l n) p q := by
  -- From the root down: the run of a node holds the runs of the nodes below it.
  induction h with
  | root => exact ⟨p, a, q, before_refl p, hrun, before_refl q⟩
  | @step l n m _ hm ih =>
    obtain ⟨p', b, q', hp, hb, hq⟩ := ih
    exact ((level_covers (write_growth setting l) n p' b q' hb).2 m hm).widen hp hq

end Writing

namespace Compiler

/-! ## Runs of a compilation -/

variable {ε : Type} [Emitter ε]

theorem compileNode_ok {c : Compiler ε} {node : Node} {result : Result} :
    c.compileNode node = .ok result ↔ ∃ top progress,
      Writing.write c.setting c.options.maxDepth node {} = .ok (top, progress) ∧
        { code := Listing.text c.options top progress.declared (topName node top progress.declared)
          declarations := progress.declared.names
          diagnostics := progress.notes } = result := by
  simp only [compileNode, Outcome.bind_ok, Outcome.pure_ok, Prod.exists]

theorem compileNode_error {c : Compiler ε} {node : Node} {failure : Failure} :
    c.compileNode node = .error failure ↔
      Writing.write c.setting c.options.maxDepth node {} = .error failure := by
  constructor
  · intro h
    rcases Outcome.bind_error.1 h with h | ⟨r, -, h⟩
    · exact h
    · cases h
  · intro h
    simp only [compileNode, h]
    rfl

theorem compile_of_read {c : Compiler ε} {raw : Value} {root : Node}
    (h : Node.ofValue c.options.maxDepth raw = .ok root) :
    c.compile (.tree raw) = c.compileNode root := by
  simp only [compile, toNode, h]
  rfl

theorem compile_of_unread {c : Compiler ε} {raw : Value} {e : CompileError}
    (h : Node.ofValue c.options.maxDepth raw = .error e) :
    c.compile (.tree raw) = .error (.ofError e) := by
  simp only [compile, toNode, h]
  rfl

end Compiler

end Schemata
