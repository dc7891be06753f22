import Schemata.Proofs.Reached
import Schemata.Proofs.WellFormed
/-!
The nodes of a description that are written as they are.

Writing goes from a node to its properties, items and members unless the node is forbidden or has
conditionals of its own. `Node.Shows` lists the nodes that are found this way, and every one of them
that is open has its body written by a run that succeeds. The conditional properties among them are
written with their branches: every branch fits its base, and what the two make together is written.

Component: the writer of nodes, on the nodes that stand in plain sight. Main results:
- `reaches_of_shows` — a run that succeeds reaches every node that is shown;
- `ran_body_of_shows` — the body of every open node that is shown is written;
- `selection_merges` — every branch that is written fits its base.
-/

namespace Schemata

namespace Node

/-- Whether writing goes into a node: it is not forbidden and has no conditionals of its own. -/
def isOpen (n : Node) : Bool := !n.isForbidden && n.guards.isEmpty

theorem isOpen_iff {n : Node} : n.isOpen = true ↔ n.isForbidden = false ∧ n.guards = [] := by
  simp [isOpen]

/-- The nodes that can be come to through properties, items and members. All nodes above them are
open. -/
inductive Shows (root : Node) : Node → Prop where
  | root : Shows root root
  | step {n m : Node} (h : Shows root n) (hopen : n.isOpen = true) (hm : m ∈ n.content) :
    Shows root m

variable {root n m k : Node} {name : String}

theorem Shows.all {P : Node → Prop} (h : root.Shows n) (hroot : root.All P) : n.All P := by
  induction h with
  | root => exact hroot
  | step _ _ hm ih => exact ih.content _ hm

theorem Shows.trans (h : root.Shows n) (h' : n.Shows m) : root.Shows m := by
  induction h' with
  | root => exact h
  | step _ hopen hm ih => exact .step ih hopen hm

/-- A property that is shown. -/
def ShowsProperty (root : Node) (name : String) (k : Node) : Prop :=
  ∃ n, root.Shows n ∧ n.isOpen = true ∧ (name, k) ∈ n.keys.getD []

theorem isSome_of_mem_keys (hk : (name, k) ∈ n.keys.getD []) : n.keys.isSome = true := by
  cases hkeys : n.keys with
  | none => simp [hkeys] at hk
  | some keys => rfl

end Node

namespace Writing

variable {root n m k base branch : Node} {name : String} {guard : Guard Node}

/-! ## Nodes below an open node -/

theorem children_of_open (hopen : n.isOpen = true) : children n =
    match n.kind with
    | .object => (n.keys.getD []).flatMap fun key => propertyNodes key.2
    | .array => n.items
    | .alternatives => n.members
    | _ => [] := by
  obtain ⟨hf, hguards⟩ := Node.isOpen_iff.1 hopen
  rw [children, if_neg (by simp [hf]), hguards]
  cases n.kind <;> rfl

theorem mem_children_of_property (hn : n.Housed) (hopen : n.isOpen = true)
    (hk : (name, k) ∈ n.keys.getD []) (hm : m ∈ propertyNodes k) : m ∈ children n := by
  have hkind : n.kind = .object := hn.keys (Node.isSome_of_mem_keys hk)
  rw [children_of_open hopen, hkind]
  exact List.mem_flatMap.2 ⟨(name, k), hk, hm⟩

theorem mem_children_of_content (hn : n.Housed) (hopen : n.isOpen = true) (hm : m ∈ n.content)
    (hguards : m.guards = []) : m ∈ children n := by
  rcases List.mem_append.1 hm with hm | hm
  · rcases List.mem_append.1 hm with hm | hm
    · obtain ⟨⟨name, k⟩, hk, rfl⟩ := List.mem_map.1 hm
      have hplain : k.guards = [] := hguards
      apply mem_children_of_property hn hopen hk
      simp [propertyNodes, hplain]
    · have hkind : n.kind = .array := hn.items (List.ne_nil_of_mem hm)
      rwa [children_of_open hopen, hkind]
  · have hkind : n.kind = .alternatives := hn.members (List.ne_nil_of_mem hm)
    rwa [children_of_open hopen, hkind]

theorem mem_propertyNodes_of_guard (hguard : guard ∈ k.guards)
    (hm : m ∈ guardNodes (guardBase k) guard) : m ∈ propertyNodes k := by
  unfold propertyNodes
  split
  · rename_i hnil
    rw [hnil] at hguard
    cases hguard
  · exact List.mem_flatMap.2 ⟨guard, hguard, hm⟩

/-- The merged nodes of a conditional property are among the nodes it is written with. -/
theorem mem_propertyNodes_of_merge (hguard : guard ∈ k.guards) (hbranch : branch ∈ guard.branches)
    (hbase : guardBase k = some base) (hm : base.merge branch = .ok m) : m ∈ propertyNodes k := by
  have hnodes : m ∈ branchNodes (guardBase k) (some branch) := by
    simp [branchNodes, hbase, hm, Except.toOption]
  apply mem_propertyNodes_of_guard hguard
  rcases List.mem_append.1 hbranch with hcase | hother
  · obtain ⟨case, hmem, hcase⟩ := List.mem_filterMap.1 hcase
    apply List.mem_append_left
    apply List.mem_append_right
    exact List.mem_flatMap.2 ⟨case, hmem, hcase ▸ hnodes⟩
  · apply List.mem_append_right
    rw [Option.mem_toList.1 hother]
    exact hnodes

/-! ## What a run has come to -/

section Run
variable {ε : Type} [Emitter ε] {setting : Setting ε} {levels l : Nat} {p q : Progress} {top : Code}

/-- Nothing is written without a level to write it on. -/
theorem Reaches.succ (h : Reaches levels root l n)
    (hrun : write setting levels root p = .ok (top, q)) : ∃ below, l = below + 1 := by
  cases l with
  | zero =>
    obtain ⟨p', code, q', -, hwrite, -⟩ := h.ran hrun
    cases hwrite
  | succ below => exact ⟨below, rfl⟩

/-- A run that succeeds reaches every node that is shown and has no conditionals of its own. -/
theorem reaches_of_shows (hrun : write setting levels root p = .ok (top, q))
    (hroot : root.All Node.Housed) (h : root.Shows n) (hguards : n.guards = []) :
    ∃ below, Reaches levels root (below + 1) n := by
  have hreached : ∃ l, Reaches levels root l n := by
    induction h with
    | root => exact ⟨levels, .root⟩
    | step h hopen hm ih =>
      obtain ⟨l, hl⟩ := ih (Node.isOpen_iff.1 hopen).2
      obtain ⟨below, rfl⟩ := hl.succ hrun
      exact ⟨below, hl.step (mem_children_of_content (h.all hroot).self hopen hm hguards)⟩
  obtain ⟨l, hl⟩ := hreached
  obtain ⟨below, rfl⟩ := hl.succ hrun
  exact ⟨below, hl⟩

theorem Reaches.ran_body (h : Reaches levels root (l + 1) n)
    (hrun : write setting levels root p = .ok (top, q)) (hf : n.isForbidden = false) :
    Ran (body setting (write setting l) n) p q := by
  have hlevel := h.ran hrun
  simp only [write, level, hf, Bool.false_eq_true, if_false] at hlevel
  apply hlevel.first
  intro code
  exact Contract.holds_bind (named_growth n code) fun _ _ => modify_growth setting n _

/-- The body of every open node that is shown is written. -/
theorem ran_body_of_shows (hrun : write setting levels root p = .ok (top, q))
    (hroot : root.All Node.Housed) (h : root.Shows n) (hopen : n.isOpen = true) :
    ∃ below, Reaches levels root (below + 1) n ∧ Ran (body setting (write setting below) n) p q := by
  obtain ⟨hf, hguards⟩ := Node.isOpen_iff.1 hopen
  obtain ⟨below, hreach⟩ := reaches_of_shows hrun hroot h hguards
  exact ⟨below, hreach, hreach.ran_body hrun hf⟩

/-! ## Conditional properties -/

section Property
variable {child : ChildWriter} (hc : ∀ m, growth.Holds (fun _ => True) (child m))
include hc

theorem selection_growth (base : Option Node) (name : String) (guard : Guard Node) :
    growth.Holds (fun _ => True) (selection setting child base name guard) :=
  (selection_holds Code.Closed.trivial.composed (fun _ => trivial) fun m _ => hc m).mono
    fun _ _ => trivial

theorem property_growth (name : String) (k : Node) :
    growth.Holds (fun _ => True) (property setting child name k) :=
  (property_holds Code.Closed.trivial.composed (fun _ _ _ => trivial) fun m _ => hc m).mono
    fun _ _ => trivial

/-- The conditionals of a property that is written are written. -/
theorem Ran.selection (h : Ran (property setting child name k) p q) (hguard : guard ∈ k.guards) :
    Ran (selection setting child (guardBase k) name guard) p q := by
  cases hguards : k.guards with
  | nil =>
    rw [hguards] at hguard
    cases hguard
  | cons first rest =>
    simp only [property, hguards] at h
    have hfield := h.first fun _ => growth_pure _
    simp only [guardedField] at hfield
    split at hfield
    · obtain ⟨p', a, q', -, hreject, -⟩ := hfield
      cases hreject
    · have hselections := hfield.first fun _ => growth_pure _
      exact hselections.each (selection_growth hc (guardBase k) name) guard hguard

/-- The conditionals of the properties of an open node are written with its body. -/
theorem Ran.property_selection (h : Ran (body setting child n) p q) (hn : n.Housed)
    (hopen : n.isOpen = true) (hk : (name, k) ∈ n.keys.getD []) (hguard : guard ∈ k.guards) :
    Ran (Writing.selection setting child (guardBase k) name guard) p q := by
  obtain ⟨-, hguards⟩ := Node.isOpen_iff.1 hopen
  have hkind : n.kind = .object := hn.keys (Node.isSome_of_mem_keys hk)
  simp only [body, hguards, hkind] at h
  have hobject : Ran (object setting child n) p q := h.first fun code =>
    completeComposite_growth setting n code
  have hproperties := hobject.first fun properties =>
    Contract.holds_bind (applyRules_growth setting n _) fun _ _ => growth_pure _
  have hproperty : Ran (property setting child name k) p q :=
    hproperties.each (fun key => property_growth hc key.1 key.2) (name, k) hk
  exact hproperty.selection hc hguard

end Property

theorem branch_merges {child : ChildWriter} {code : Code}
    (h : Writing.branch setting child (some base) (some branch) p = .ok (code, q)) :
    ∃ m, base.merge branch = .ok m := by
  obtain ⟨m, q', hm, -⟩ := bind_ok.1 h
  exact ⟨m, Outcome.toWritten_ok.1 (lift_ok.1 hm).1⟩

/-- Every branch that is written fits its base. -/
theorem selection_merges {child : ChildWriter} {s : Selection}
    (h : Writing.selection setting child (some base) name guard p = .ok (s, q))
    (hbranch : branch ∈ guard.branches) : ∃ m, base.merge branch = .ok m := by
  obtain ⟨access, p₁, -, h⟩ := bind_ok.1 h
  obtain ⟨tests, p₂, -, h⟩ := bind_ok.1 h
  obtain ⟨branches, p₃, hbranches, h⟩ := bind_ok.1 h
  obtain ⟨otherwise, p₄, hotherwise, -⟩ := bind_ok.1 h
  rcases List.mem_append.1 hbranch with hcase | hother
  · obtain ⟨case, hmem, hcase⟩ := List.mem_filterMap.1 hcase
    obtain ⟨p', code, q', hrun⟩ := mapM_ok hbranches case hmem
    rw [hcase] at hrun
    exact branch_merges hrun
  · rw [Option.mem_toList.1 hother] at hotherwise
    exact branch_merges hotherwise

end Run

end Writing

end Schemata
