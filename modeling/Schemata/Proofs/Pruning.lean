import Schemata.Compiler
import Schemata.Proofs.Contract
import Schemata.Proofs.Parts
/-!
Pruning: what a forbidden node holds is never written.

`Node.prune` leaves nothing of a forbidden node without conditionals but its presence and its path,
wherever it stands. A forbidden node with conditionals is kept, since its branches may allow the
value after all. Writing a node or its pruned form is the same step, with the same code, the same
progress and the same failures: every place that looks at a node asks whether it is forbidden before
it asks anything else.

Component: the writer of nodes, on nodes and on their pruned forms. Main results:
- `Node.merge_prune` — pruned nodes merge like the nodes themselves;
- `write_prune` — writing does not look into dead parts, on any level;
- `Compiler.compileNode_prune` — and neither does compiling.
-/

namespace Schemata

/-! ## Changing all parts of a node -/

def Case.mapParts (f : Node → Node) (c : Case Node) : Case Node :=
  { c with condition := f c.condition, branch := c.branch.map f }

def Guard.mapParts (f : Node → Node) (g : Guard Node) : Guard Node :=
  { g with cases := g.cases.map (Case.mapParts f), otherwise := g.otherwise.map f }

namespace Node

/-- A node with all its parts changed. -/
def mapParts (f : Node → Node) (n : Node) : Node :=
  { n with
    keys := n.keys.map (List.map (mapKey f))
    items := n.items.map f
    members := n.members.map f
    guards := n.guards.map (Guard.mapParts f) }

mutual
/-- A node with a change made on every level, from the lowest level up. -/
def rebuild (f : Node → Node) : Node → Node
  | ⟨kind, flags, rules, valids, allow, invalids, keys, items, members, guards, name, path⟩ =>
    f ⟨kind, flags, rules, valids, allow, invalids, rebuildKeys f keys, rebuildAll f items,
      rebuildAll f members, rebuildGuards f guards, name, path⟩
/-- Properties, if they are listed, with a change made on every level. -/
def rebuildKeys (f : Node → Node) : Option (List (String × Node)) → Option (List (String × Node))
  | none => none
  | some keys => some (rebuildNamed f keys)
def rebuildNamed (f : Node → Node) : List (String × Node) → List (String × Node)
  | [] => []
  | (name, node) :: rest => (name, rebuild f node) :: rebuildNamed f rest
def rebuildAll (f : Node → Node) : List Node → List Node
  | [] => []
  | node :: rest => rebuild f node :: rebuildAll f rest
def rebuildGuards (f : Node → Node) : List (Guard Node) → List (Guard Node)
  | [] => []
  | ⟨reference, cases, otherwise, path⟩ :: rest =>
    ⟨reference, rebuildCases f cases, rebuildBranch f otherwise, path⟩ :: rebuildGuards f rest
def rebuildCases (f : Node → Node) : List (Case Node) → List (Case Node)
  | [] => []
  | ⟨condition, negated, branch⟩ :: rest =>
    ⟨rebuild f condition, negated, rebuildBranch f branch⟩ :: rebuildCases f rest
/-- A branch, if it is there, with a change made on every level. -/
def rebuildBranch (f : Node → Node) : Option Node → Option Node
  | none => none
  | some node => some (rebuild f node)
end

variable (f : Node → Node)

theorem rebuildBranch_eq (branch : Option Node) : rebuildBranch f branch = branch.map (rebuild f) := by
  cases branch <;> rfl

theorem rebuildCases_eq (cases : List (Case Node)) :
    rebuildCases f cases = cases.map (Case.mapParts (rebuild f)) := by
  induction cases with
  | nil => rfl
  | cons c rest ih =>
    simp only [rebuildCases, ih, rebuildBranch_eq, List.map_cons]
    rfl

theorem rebuildGuards_eq (guards : List (Guard Node)) :
    rebuildGuards f guards = guards.map (Guard.mapParts (rebuild f)) := by
  induction guards with
  | nil => rfl
  | cons g rest ih =>
    simp only [rebuildGuards, ih, rebuildBranch_eq, rebuildCases_eq, List.map_cons]
    rfl

theorem rebuildAll_eq (nodes : List Node) : rebuildAll f nodes = nodes.map (rebuild f) := by
  induction nodes with
  | nil => rfl
  | cons node rest ih => simp only [rebuildAll, ih, List.map_cons]

theorem rebuildNamed_eq (keys : List (String × Node)) :
    rebuildNamed f keys = keys.map (mapKey (rebuild f)) := by
  induction keys with
  | nil => rfl
  | cons key rest ih =>
    simp only [rebuildNamed, ih, List.map_cons]
    rfl

theorem rebuildKeys_eq (keys : Option (List (String × Node))) :
    rebuildKeys f keys = keys.map (List.map (mapKey (rebuild f))) := by
  cases keys with
  | none => rfl
  | some keys => simp only [rebuildKeys, rebuildNamed_eq, Option.map_some]

/-- A change on every level is a change of the node with all its parts changed. -/
theorem rebuild_eq (n : Node) : n.rebuild f = f (n.mapParts (rebuild f)) := by
  cases n
  simp only [rebuild, mapParts, rebuildKeys_eq, rebuildAll_eq, rebuildGuards_eq]

/-! ## Pruning -/

/-- Whether nothing that a node holds can matter: it is forbidden, and no branch allows it again. -/
def isDead (n : Node) : Bool := n.isForbidden && n.guards.isEmpty

/-- What is left of a forbidden node: its presence and its path. -/
def bare (n : Node) : Node := bareForbidden n.presence n.path

/-- A node with all dead nodes inside it made bare. -/
def prune : Node → Node := rebuild fun n => if n.isDead then n.bare else n

theorem isDead_mapParts (n : Node) : (n.mapParts f).isDead = n.isDead := by
  simp only [isDead, isForbidden, mapParts, List.isEmpty_map]

theorem prune_eq (n : Node) : n.prune = if n.isDead then n.bare else n.mapParts prune := by
  rw [prune, rebuild_eq, isDead_mapParts]
  rfl

theorem prune_of_dead {n : Node} (h : n.isDead = true) : n.prune = n.bare := by
  rw [prune_eq, if_pos h]

theorem prune_of_live {n : Node} (h : n.isDead = false) : n.prune = n.mapParts prune := by
  rw [prune_eq, if_neg (by simp [h])]

/-- The bare form of a dead node is forbidden, whatever made the node so. -/
theorem isForbidden_bare (n : Node) : n.bare.isForbidden = true := rfl

theorem isDead_bare (n : Node) : n.bare.isDead = true := rfl

theorem bare_bare (n : Node) : n.bare.bare = n.bare := rfl

/-- Pruning keeps what others ask about a node before they look into it. -/
theorem prune_path (n : Node) : n.prune.path = n.path := by
  rw [prune_eq]
  split <;> rfl

theorem prune_presence (n : Node) : n.prune.presence = n.presence := by
  rw [prune_eq]
  split <;> rfl

theorem prune_isForbidden (n : Node) : n.prune.isForbidden = n.isForbidden := by
  rw [prune_eq]
  split
  · rename_i hdead
    rw [isForbidden_bare, (Bool.and_eq_true_iff.1 hdead).1]
  · rfl

theorem prune_guards (n : Node) : n.prune.guards = n.guards.map (Guard.mapParts prune) := by
  rw [prune_eq]
  split
  · rename_i hdead
    rw [List.isEmpty_iff.1 (Bool.and_eq_true_iff.1 hdead).2]
    rfl
  · rfl

/-! ## Merging pruned nodes -/

/-- A base with its parts pruned and a pruned branch merge like the base and the branch themselves.
The base is not pruned as a whole: it may be forbidden and yet be given another kind of presence by
its branch. -/
theorem merge_prune (base branch : Node) :
    (base.mapParts prune).merge branch.prune = (base.merge branch).map (mapParts prune) := by
  by_cases hf : branch.isForbidden = true
  · -- A forbidden branch replaces its base, pruned or not.
    simp only [merge, prune_isForbidden, hf, if_true, prune_presence, prune_path]
    rfl
  · have hlive : branch.isDead = false := by simp [isDead, hf]
    rw [prune_of_live hlive]
    have hforbidden : (branch.mapParts prune).isForbidden = branch.isForbidden := rfl
    simp only [merge, hforbidden, hf, if_false, Bool.false_eq_true]
    cases hguards : branch.guards with
    | cons guard rest =>
      simp only [mapParts, hguards, List.map_cons]
      rfl
    | nil =>
      simp only [mapParts, hguards, List.map_nil]
      cases mergeKind? base.kind branch.kind with
      | none => rfl
      | some kind =>
        simp only [Except.map, mapParts, mergeKeys_mapKey, List.map_append, List.map_nil]

end Node

namespace Writing

theorem guardBase_mapParts (f : Node → Node) (n : Node) :
    guardBase (n.mapParts f) = (guardBase n).map (Node.mapParts f) := by
  simp only [guardBase, Node.mapParts, List.isEmpty_map]
  split <;> rfl

/-! ## Writing pruned nodes -/

/-- Steps over changed items are steps over the items, if no step sees the change. -/
theorem mapM_map_eq {α β : Type} {e : α → α} {f : α → Write β} (h : ∀ a, f (e a) = f a) (l : List α) :
    (l.map e).mapM f = l.mapM f := by
  rw [List.mapM_map]
  congr 1
  funext a
  exact h a

section Children
variable {setting : Setting} {child : ChildWriter} (hc : ∀ m : Node, child m.prune = child m)
include hc

/-- A writer that does not tell a node from its pruned form does not look at the parts of a dead node
either. -/
theorem child_mapParts (n : Node) : child (n.mapParts Node.prune) = child n := by
  cases hdead : n.isDead with
  | true =>
    have hparts : (n.mapParts Node.prune).prune = n.prune := by
      rw [Node.prune_of_dead hdead, Node.prune_of_dead (by rw [Node.isDead_mapParts, hdead])]
      rfl
    rw [← hc, hparts, hc]
  | false => rw [← Node.prune_of_live hdead, hc]

theorem field_mapParts (n : Node) :
    field setting child (n.mapParts Node.prune) = field setting child n := by
  simp only [field, child_mapParts hc]
  rfl

theorem field_prune (n : Node) : field setting child n.prune = field setting child n := by
  cases hdead : n.isDead with
  | true =>
    -- The code of a forbidden property is all there is to it.
    have hforbidden : n.isForbidden = true := (Bool.and_eq_true_iff.1 hdead).1
    simp only [field, hc, Node.prune_isForbidden, hforbidden, Bool.or_true, Bool.true_or, if_true]
  | false => rw [Node.prune_of_live hdead, field_mapParts hc]

theorem branch_prune (base branch : Option Node) :
    Writing.branch setting child (base.map (Node.mapParts Node.prune)) (branch.map Node.prune) =
      Writing.branch setting child base branch := by
  cases base with
  | none =>
    cases branch with
    | none => rfl
    | some branch => exact field_prune hc branch
  | some base =>
    cases branch with
    | none => exact field_mapParts hc base
    | some branch =>
      simp only [Writing.branch, Option.map_some, Node.merge_prune]
      cases base.merge branch with
      | ok merged => exact field_mapParts hc merged
      | error e => rfl

theorem test_prune (access : String) (case : Case Node) :
    test child access (case.mapParts Node.prune) = test child access case := by
  simp only [test, Case.mapParts, hc, Node.prune_presence]

theorem selection_prune (base : Option Node) (name : String) (guard : Guard Node) :
    selection setting child (base.map (Node.mapParts Node.prune)) name (guard.mapParts Node.prune) =
      selection setting child base name guard := by
  have htests : ∀ access, (guard.cases.map (Case.mapParts Node.prune)).mapM (test child access) =
      guard.cases.mapM (test child access) :=
    fun access => mapM_map_eq (test_prune hc access) guard.cases
  have hbranches : (guard.cases.map (Case.mapParts Node.prune)).mapM
      (fun case => Writing.branch setting child (base.map (Node.mapParts Node.prune)) case.branch) =
        guard.cases.mapM fun case => Writing.branch setting child base case.branch := by
    rw [List.mapM_map]
    congr 1
    funext case
    exact branch_prune hc base case.branch
  simp only [selection, Guard.mapParts, htests, hbranches, branch_prune hc]

theorem guardedField_prune (name : String) (n : Node) (first : Guard Node) :
    guardedField setting child name (n.mapParts Node.prune) (first.mapParts Node.prune) =
      guardedField setting child name n first := by
  have hselections : (n.mapParts Node.prune).guards.mapM
      (selection setting child (guardBase (n.mapParts Node.prune)) name) =
        n.guards.mapM (selection setting child (guardBase n) name) := by
    rw [guardBase_mapParts, Node.mapParts, List.mapM_map]
    congr 1
    funext guard
    exact selection_prune hc (guardBase n) name guard
  simp only [guardedField, hselections]
  rfl

theorem property_prune (name : String) (n : Node) :
    property setting child name n.prune = property setting child name n := by
  simp only [property, Node.prune_guards]
  cases hguards : n.guards with
  | nil => simp only [List.map_nil, field_prune hc]
  | cons first rest =>
    have hlive : n.isDead = false := by simp [Node.isDead, hguards]
    simp only [List.map_cons, Node.prune_of_live hlive, guardedField_prune hc]

theorem object_prune (n : Node) :
    object setting child (n.mapParts Node.prune) = object setting child n := by
  have hkeys : (n.mapParts Node.prune).keys.getD [] =
      (n.keys.getD []).map (Node.mapKey Node.prune) := by
    cases hkeys : n.keys <;> simp [Node.mapParts, hkeys]
  have hunknown : ∀ target,
      applyUnknown setting (n.mapParts Node.prune) target = applyUnknown setting n target := by
    intro target
    cases hkeys : n.keys <;> simp [applyUnknown, Node.mapParts, hkeys]
  have hproperties : ((n.keys.getD []).map (Node.mapKey Node.prune)).mapM
      (fun key => property setting child key.1 key.2) =
        (n.keys.getD []).mapM fun key => property setting child key.1 key.2 :=
    mapM_map_eq (fun key => property_prune hc key.1 key.2) (n.keys.getD [])
  simp only [object, hkeys, hunknown, hproperties]
  rfl

theorem array_prune (n : Node) :
    array setting child (n.mapParts Node.prune) = array setting child n := by
  have hitems : (n.mapParts Node.prune).items.mapM child = n.items.mapM child :=
    mapM_map_eq hc n.items
  simp only [array, hitems]
  rfl

theorem alternatives_prune (n : Node) :
    alternatives setting child (n.mapParts Node.prune) = alternatives setting child n := by
  have hmembers : (n.mapParts Node.prune).members.mapM child = n.members.mapM child :=
    mapM_map_eq hc n.members
  simp only [alternatives, hmembers]
  rfl

theorem body_prune (n : Node) : body setting child (n.mapParts Node.prune) = body setting child n := by
  have hguards : (n.mapParts Node.prune).guards = n.guards.map (Guard.mapParts Node.prune) := rfl
  have hkind : (n.mapParts Node.prune).kind = n.kind := rfl
  simp only [body, hguards, hkind, object_prune hc, array_prune hc, alternatives_prune hc]
  cases n.guards with
  | cons guard rest => rfl
  | nil => rfl

theorem level_prune (n : Node) : level setting child n.prune = level setting child n := by
  cases hdead : n.isDead with
  | true =>
    have hforbidden : n.isForbidden = true := (Bool.and_eq_true_iff.1 hdead).1
    simp only [level, Node.prune_isForbidden, hforbidden, if_true]
  | false =>
    rw [Node.prune_of_live hdead]
    simp only [level, body_prune hc]
    rfl

end Children

/-- Writing a node does not look into its dead parts, on any level. -/
theorem write_prune (setting : Setting) (levels : Nat) (n : Node) :
    write setting levels n.prune = write setting levels n := by
  induction levels generalizing n with
  | zero => simp only [write, Node.prune_path]
  | succ levels ih => exact level_prune ih n

end Writing

/-- Compiling a node does not look into its dead parts. A dead node is not declared, so that its name
cannot be taken for the name of the whole. -/
theorem Compiler.compileNode_prune (c : Compiler) (n : Node) :
    c.compileNode n.prune = c.compileNode n := by
  simp only [compileNode, Writing.write_prune]
  cases hdead : n.isDead with
  | false => rw [Node.prune_of_live hdead]; rfl
  | true =>
    have hforbidden : n.isForbidden = true := (Bool.and_eq_true_iff.1 hdead).1
    rw [Node.prune_of_dead hdead]
    cases c.options.maxDepth with
    | zero => rfl
    | succ levels =>
      have hrun : Writing.write c.setting (levels + 1) n {} = .ok (Code.absent, {}) := by
        simp only [Writing.write, Writing.level, hforbidden, if_true, Writing.pure_run]
      have hname : topName n Code.absent {} = none := by
        unfold topName
        cases n.name <;> rfl
      rw [hrun, Outcome.ok_bind, Outcome.ok_bind, hname]
      rfl

end Schemata
