import Schemata.Proofs.Outcome
import Schemata.Proofs.Traversal
/-!
The parts of a node, and what the nodes below it have to do with them.

A node has content (properties, items and members), branches, and conditions. The nodes that writing
hands to the level below are parts of the node, or they are made from a property and one of its
branches. A fact that holds of all parts on all levels therefore holds of every node that is ever
written, if merging keeps it.

Component: nodes, `Node`, and the nodes that the writer hands to the level below. Main results:
- `Node.merge_ok` — a merge gives a bare forbidden node, or the two nodes put together;
- `all_of_mem_children` — a fact that merging keeps passes from a node to the nodes below.
-/

namespace Schemata

def Guard.branches (g : Guard Node) : List Node :=
  g.cases.filterMap Case.branch ++ g.otherwise.toList

def Guard.conditions (g : Guard Node) : List Node := g.cases.map Case.condition

namespace Node

def content (n : Node) : List Node := (n.keys.getD []).map Prod.snd ++ n.items ++ n.members

def branches (n : Node) : List Node := n.guards.flatMap Guard.branches

def conditions (n : Node) : List Node := n.guards.flatMap Guard.conditions

/-- A fact that holds of a node and of all its parts, on all levels. -/
inductive All (P : Node → Prop) : Node → Prop where
  | intro {n : Node} (self : P n) (content : ∀ m ∈ n.content, All P m)
    (branches : ∀ m ∈ n.branches, All P m) (conditions : ∀ m ∈ n.conditions, All P m) : All P n

namespace All

variable {P : Node → Prop} {n : Node}

theorem self (h : All P n) : P n := by
  cases h with
  | intro self _ _ _ => exact self

theorem content (h : All P n) : ∀ m ∈ n.content, All P m := by
  cases h with
  | intro _ content _ _ => exact content

theorem branches (h : All P n) : ∀ m ∈ n.branches, All P m := by
  cases h with
  | intro _ _ branches _ => exact branches

theorem conditions (h : All P n) : ∀ m ∈ n.conditions, All P m := by
  cases h with
  | intro _ _ _ conditions => exact conditions

end All

/-! ## Content of merged nodes -/

theorem mem_put {l : Named Node} {name : String} {a : Node} {entry : String × Node}
    (h : entry ∈ Named.put l name a) : entry ∈ l ∨ entry = (name, a) := by
  induction l with
  | nil => exact .inr (by simpa [Named.put] using h)
  | cons head rest ih =>
    obtain ⟨n, b⟩ := head
    simp only [Named.put] at h
    split at h
    · -- The name is there already, and its node is replaced.
      rename_i hn
      subst hn
      rcases List.mem_cons.1 h with h | h
      · exact .inr h
      · exact .inl (List.mem_cons_of_mem _ h)
    · rcases List.mem_cons.1 h with h | h
      · exact .inl (h ▸ List.mem_cons_self)
      · rcases ih h with h | h
        · exact .inl (List.mem_cons_of_mem _ h)
        · exact .inr h

theorem mem_foldl_put {keys merged : Named Node} {entry : String × Node}
    (h : entry ∈ keys.foldl (fun merged key => Named.put merged key.1 key.2) merged) :
    entry ∈ merged ∨ entry ∈ keys := by
  induction keys generalizing merged with
  | nil => exact .inl h
  | cons key keys ih =>
    rcases ih h with h | h
    · rcases mem_put h with h | h
      · exact .inl h
      · exact .inr (h ▸ List.mem_cons_self)
    · exact .inr (List.mem_cons_of_mem _ h)

theorem mem_mergeKeys {base branch : Option (Named Node)} {entry : String × Node}
    (h : entry ∈ (mergeKeys base branch).getD []) :
    entry ∈ base.getD [] ∨ entry ∈ branch.getD [] := by
  cases branch with
  | none => exact .inl h
  | some keys => exact mem_foldl_put h

def mapKey (f : Node → Node) (key : String × Node) : String × Node := (key.1, f key.2)

theorem put_mapKey (f : Node → Node) (l : Named Node) (name : String) (a : Node) :
    (Named.put l name a).map (mapKey f) = Named.put (l.map (mapKey f)) name (f a) := by
  induction l with
  | nil => rfl
  | cons head rest ih =>
    simp only [Named.put, List.map_cons, mapKey]
    split
    · rfl
    · simp only [List.map_cons, mapKey, ih]

theorem foldl_put_mapKey (f : Node → Node) (keys merged : Named Node) :
    (keys.foldl (fun merged key => Named.put merged key.1 key.2) merged).map (mapKey f) =
      (keys.map (mapKey f)).foldl (fun merged key => Named.put merged key.1 key.2)
        (merged.map (mapKey f)) := by
  induction keys generalizing merged with
  | nil => rfl
  | cons key rest ih =>
    simp only [List.foldl_cons, List.map_cons, ih, put_mapKey]
    rfl

theorem mergeKeys_mapKey (f : Node → Node) (base branch : Option (Named Node)) :
    (mergeKeys base branch).map (List.map (mapKey f)) =
      mergeKeys (base.map (List.map (mapKey f))) (branch.map (List.map (mapKey f))) := by
  cases branch with
  | none => rfl
  | some keys =>
    simp only [mergeKeys, Option.map_some, foldl_put_mapKey]
    cases base <;> rfl

/-- A merge gives a bare forbidden node, or the two nodes put together. -/
theorem merge_ok {base branch n : Node} (h : base.merge branch = .ok n) :
    branch.isForbidden = true ∧ n = bareForbidden branch.presence branch.path ∨
      branch.isForbidden = false ∧ branch.guards = [] ∧
        ∃ kind, mergeKind? base.kind branch.kind = some kind ∧ n = {
          kind := kind
          flags := base.flags.combine branch.flags
          rules := base.rules ++ branch.rules
          valids := if branch.valids.isEmpty then base.valids else branch.valids
          allow := base.allow ++ branch.allow
          invalids := base.invalids ++ branch.invalids
          keys := mergeKeys base.keys branch.keys
          items := base.items ++ branch.items
          members := base.members ++ branch.members
          path := branch.path } := by
  unfold merge at h
  split at h
  · rename_i hf
    cases h
    exact .inl ⟨hf, rfl⟩
  · rename_i hf
    split at h
    · cases h
    · cases h
    · rename_i kind hguards hkind
      cases h
      exact .inr ⟨by simpa using hf, hguards, kind, hkind, rfl⟩

theorem merge_guards {base branch n : Node} (h : base.merge branch = .ok n) : n.guards = [] := by
  rcases merge_ok h with ⟨-, rfl⟩ | ⟨-, -, kind, -, rfl⟩ <;> rfl

/-- Everything a merged node contains comes from its base or from its branch. -/
theorem merge_content {base branch n m : Node} (h : base.merge branch = .ok n)
    (hm : m ∈ n.content) : m ∈ base.content ∨ m ∈ branch.content := by
  rcases merge_ok h with ⟨-, rfl⟩ | ⟨-, -, kind, -, rfl⟩
  · simp [content, bareForbidden] at hm
  · simp only [content, List.mem_append, List.mem_map] at hm ⊢
    rcases hm with (⟨key, hkey, rfl⟩ | hm | hm) | hm | hm
    · rcases mem_mergeKeys hkey with hkey | hkey
      · exact .inl (.inl (.inl ⟨key, hkey, rfl⟩))
      · exact .inr (.inl (.inl ⟨key, hkey, rfl⟩))
    · exact .inl (.inl (.inr hm))
    · exact .inr (.inl (.inr hm))
    · exact .inl (.inr hm)
    · exact .inr (.inr hm)

/-- Whatever a merged node lists, its base or its branch lists. -/
theorem merge_values {base branch n : Node} {v : Value} (h : base.merge branch = .ok n)
    (hv : v ∈ n.valids ++ n.allow ++ n.invalids) :
    v ∈ base.valids ++ base.allow ++ base.invalids ∨
      v ∈ branch.valids ++ branch.allow ++ branch.invalids := by
  rcases merge_ok h with ⟨-, rfl⟩ | ⟨-, -, kind, -, rfl⟩
  · cases hv
  · simp only [List.mem_append] at hv ⊢
    rcases hv with (hv | hv) | hv
    · split at hv <;> simp [hv]
    · rcases hv with hv | hv <;> simp [hv]
    · rcases hv with hv | hv <;> simp [hv]

theorem merge_default {base branch n : Node} {v : Value} (h : base.merge branch = .ok n)
    (hv : n.flags.default = some v) :
    base.flags.default = some v ∨ branch.flags.default = some v := by
  rcases merge_ok h with ⟨-, rfl⟩ | ⟨-, -, kind, -, rfl⟩
  · cases hv
  · replace hv : (branch.flags.default <|> base.flags.default) = some v := hv
    cases hdefault : branch.flags.default with
    | none =>
      rw [hdefault] at hv
      exact .inl hv
    | some d =>
      rw [hdefault] at hv
      exact .inr hv

theorem merge_branches {base branch n : Node} (h : base.merge branch = .ok n) :
    n.branches = [] := by
  simp [branches, merge_guards h]

theorem merge_conditions {base branch n : Node} (h : base.merge branch = .ok n) :
    n.conditions = [] := by
  simp [conditions, merge_guards h]

end Node

namespace Writing

/-! ## Where the nodes below a node come from -/

/-- How a node comes to be written below another one: as a part of it, or for a conditional of one
of its properties. -/
inductive Below (n m : Node) : Prop where
  | content (h : m ∈ n.content)
  | condition {k : Node} (hk : k ∈ n.content) (h : m ∈ k.conditions)
  | branch {k : Node} (hk : k ∈ n.content) (hbase : guardBase k = none) (h : m ∈ k.branches)
  | base {k : Node} (hk : k ∈ n.content) (h : guardBase k = some m)
  | merged {k base branch : Node} (hk : k ∈ n.content) (hbase : guardBase k = some base)
    (hbranch : branch ∈ k.branches) (h : base.merge branch = .ok m)

theorem below_of_branchNodes {n k m : Node} {branch : Option Node} (hk : k ∈ n.content)
    (hbranch : ∀ b, branch = some b → b ∈ k.branches)
    (hm : m ∈ branchNodes (guardBase k) branch) : Below n m := by
  cases hbase : guardBase k with
  | none =>
    cases branch with
    | none => simp [branchNodes, hbase] at hm
    | some b =>
      simp only [branchNodes, hbase, List.mem_singleton] at hm
      exact .branch hk hbase (hm ▸ hbranch b rfl)
  | some base =>
    cases branch with
    | none =>
      simp only [branchNodes, hbase, List.mem_singleton] at hm
      exact .base hk (hm ▸ hbase)
    | some b =>
      cases hmerge : base.merge b with
      | ok node =>
        simp only [branchNodes, hbase, hmerge, Except.toOption, Option.toList_some,
          List.mem_singleton] at hm
        exact .merged hk hbase (hbranch b rfl) (hm ▸ hmerge)
      | error e => simp [branchNodes, hbase, hmerge, Except.toOption] at hm

theorem below_of_propertyNodes {n k m : Node} (hk : k ∈ n.content) (hm : m ∈ propertyNodes k) :
    Below n m := by
  unfold propertyNodes at hm
  split at hm
  · exact .content (List.mem_singleton.1 hm ▸ hk)
  · obtain ⟨g, hg, hm⟩ := List.mem_flatMap.1 hm
    have hcase : ∀ case ∈ g.cases, ∀ b, case.branch = some b → b ∈ k.branches := by
      intro case hcase b hb
      refine List.mem_flatMap.2 ⟨g, hg, List.mem_append_left _ ?_⟩
      exact List.mem_filterMap.2 ⟨case, hcase, hb⟩
    have hother : ∀ b, g.otherwise = some b → b ∈ k.branches := by
      intro b hb
      exact List.mem_flatMap.2 ⟨g, hg, List.mem_append_right _ (by simp [hb])⟩
    simp only [guardNodes, List.mem_append] at hm
    rcases hm with (hm | hm) | hm
    · exact .condition hk (List.mem_flatMap.2 ⟨g, hg, hm⟩)
    · obtain ⟨case, hmem, hm⟩ := List.mem_flatMap.1 hm
      exact below_of_branchNodes hk (hcase case hmem) hm
    · exact below_of_branchNodes hk hother hm

theorem below_of_mem_children {n m : Node} (hm : m ∈ children n) : Below n m := by
  unfold children at hm
  split at hm
  · cases hm
  · split at hm
    · obtain ⟨key, hkey, hm⟩ := List.mem_flatMap.1 hm
      refine below_of_propertyNodes ?_ hm
      exact List.mem_append_left _ (List.mem_append_left _ (List.mem_map_of_mem hkey))
    · exact .content (List.mem_append_left _ (List.mem_append_right _ hm))
    · exact .content (List.mem_append_right _ hm)
    · cases hm

theorem guardBase_eq {k base : Node} (h : guardBase k = some base) :
    base = { k with guards := [], name := none } := by
  unfold guardBase at h
  split at h
  · cases h
  · cases h
    rfl

theorem guardBase_guards {k base : Node} (h : guardBase k = some base) : base.guards = [] := by
  rw [guardBase_eq h]

theorem guardBase_content {k base : Node} (h : guardBase k = some base) :
    base.content = k.content ∧ base.branches = [] ∧ base.conditions = [] := by
  rw [guardBase_eq h]
  exact ⟨rfl, rfl, rfl⟩

/-- A fact that merging keeps passes from a node with all its parts to the nodes below. What branches
are merged into has no conditionals. -/
theorem all_of_mem_children {P : Node → Prop}
    (hbase : ∀ k base, guardBase k = some base → P k → P base)
    (hmerge : ∀ base branch m, base.merge branch = .ok m → base.guards = [] → P base → P branch →
      P m)
    {n m : Node} (h : n.All P) (hm : m ∈ children n) : m.All P := by
  -- The base of a property has the content of the property and no conditionals.
  have hguard : ∀ k ∈ n.content, ∀ base, guardBase k = some base → base.All P := by
    intro k hk base hb
    obtain ⟨hcontent, hbranches, hconditions⟩ := guardBase_content hb
    have hk := h.content k hk
    refine .intro (hbase k base hb hk.self) ?_ ?_ ?_
    · rw [hcontent]; exact hk.content
    · simp [hbranches]
    · simp [hconditions]
  cases below_of_mem_children hm with
  | content hm => exact h.content m hm
  | condition hk hm => exact (h.content _ hk).conditions m hm
  | branch hk _ hm => exact (h.content _ hk).branches m hm
  | base hk hb => exact hguard _ hk m hb
  | merged hk hb hbranch hmerged =>
    have hguards := guardBase_guards hb
    have hb := hguard _ hk _ hb
    have hbranch := (h.content _ hk).branches _ hbranch
    refine .intro (hmerge _ _ m hmerged hguards hb.self hbranch.self) ?_ ?_ ?_
    · intro x hx
      rcases Node.merge_content hmerged hx with hx | hx
      · exact hb.content x hx
      · exact hbranch.content x hx
    · simp [Node.merge_branches hmerged]
    · simp [Node.merge_conditions hmerged]

end Writing

end Schemata
