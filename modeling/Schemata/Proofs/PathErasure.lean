import Schemata.Proofs.Parts
/-!
Nodes up to their paths.

`withoutPaths` puts the root in the place of every path inside a node. It goes through everything that
is done to nodes on the way to their code: taking the base of a conditional property, and merging a
branch into it.

Component: nodes, their paths, and `Node.merge`. Main results:
- `Node.withoutPaths_eq` — erasing paths changes the parts of a node and its path, and nothing else;
- `Node.merge_withoutPaths` — merging and erasing paths can be done in either order.
-/

namespace Schemata

namespace Node

mutual
/-- A node with all paths inside it erased. -/
def withoutPaths : Node → Node
  | ⟨kind, flags, rules, valids, allow, invalids, keys, items, members, guards, name, _⟩ =>
    ⟨kind, flags, rules, valids, allow, invalids, keysWithoutPaths keys, listWithoutPaths items,
      listWithoutPaths members, guardsWithoutPaths guards, name, .root⟩
def keysWithoutPaths : Option (List (String × Node)) → Option (List (String × Node))
  | none => none
  | some keys => some (namedWithoutPaths keys)
def namedWithoutPaths : List (String × Node) → List (String × Node)
  | [] => []
  | (name, node) :: rest => (name, withoutPaths node) :: namedWithoutPaths rest
def listWithoutPaths : List Node → List Node
  | [] => []
  | node :: rest => withoutPaths node :: listWithoutPaths rest
def guardsWithoutPaths : List (Guard Node) → List (Guard Node)
  | [] => []
  | ⟨reference, cases, otherwise, _⟩ :: rest =>
    ⟨reference, casesWithoutPaths cases, branchWithoutPaths otherwise, .root⟩ ::
      guardsWithoutPaths rest
def casesWithoutPaths : List (Case Node) → List (Case Node)
  | [] => []
  | ⟨condition, negated, branch⟩ :: rest =>
    ⟨withoutPaths condition, negated, branchWithoutPaths branch⟩ :: casesWithoutPaths rest
/-- A branch, if it is there, with all paths erased. -/
def branchWithoutPaths : Option Node → Option Node
  | none => none
  | some node => some (withoutPaths node)
end

end Node

def Case.withoutPaths (c : Case Node) : Case Node :=
  { c with condition := c.condition.withoutPaths, branch := c.branch.map Node.withoutPaths }

def Guard.withoutPaths (g : Guard Node) : Guard Node :=
  { g with
    cases := g.cases.map Case.withoutPaths
    otherwise := g.otherwise.map Node.withoutPaths
    path := .root }

def propertyWithoutPaths (key : String × Node) : String × Node := (key.1, key.2.withoutPaths)

namespace Node

theorem branchWithoutPaths_eq (branch : Option Node) :
    branchWithoutPaths branch = branch.map withoutPaths := by
  cases branch <;> rfl

theorem casesWithoutPaths_eq (cases : List (Case Node)) :
    casesWithoutPaths cases = cases.map Case.withoutPaths := by
  induction cases with
  | nil => rfl
  | cons c rest ih =>
    simp only [casesWithoutPaths, ih, branchWithoutPaths_eq, List.map_cons]
    rfl

theorem guardsWithoutPaths_eq (guards : List (Guard Node)) :
    guardsWithoutPaths guards = guards.map Guard.withoutPaths := by
  induction guards with
  | nil => rfl
  | cons g rest ih =>
    simp only [guardsWithoutPaths, ih, branchWithoutPaths_eq, casesWithoutPaths_eq, List.map_cons]
    rfl

theorem listWithoutPaths_eq (nodes : List Node) :
    listWithoutPaths nodes = nodes.map withoutPaths := by
  induction nodes with
  | nil => rfl
  | cons node rest ih => simp only [listWithoutPaths, ih, List.map_cons]

theorem namedWithoutPaths_eq (keys : List (String × Node)) :
    namedWithoutPaths keys = keys.map propertyWithoutPaths := by
  induction keys with
  | nil => rfl
  | cons key rest ih =>
    simp only [namedWithoutPaths, ih, List.map_cons]
    rfl

theorem keysWithoutPaths_eq (keys : Option (List (String × Node))) :
    keysWithoutPaths keys = keys.map (List.map propertyWithoutPaths) := by
  cases keys with
  | none => rfl
  | some keys => simp only [keysWithoutPaths, namedWithoutPaths_eq, Option.map_some]

/-- Erasing paths changes the parts of a node and its path, and nothing else. -/
theorem withoutPaths_eq (n : Node) : n.withoutPaths = { n with
    keys := n.keys.map (List.map propertyWithoutPaths)
    items := n.items.map withoutPaths
    members := n.members.map withoutPaths
    guards := n.guards.map Guard.withoutPaths
    path := .root } := by
  cases n
  simp only [withoutPaths, keysWithoutPaths_eq, listWithoutPaths_eq, guardsWithoutPaths_eq]

/-- What is left of a node without its paths and without its own presence, default and strip. -/
def shape (n : Node) : Node :=
  { n.withoutPaths with
    flags := { n.flags with presence := none, default := none, strip := none } }

/-- The parts of two nodes of the same shape. -/
structure Alike (n₁ n₂ : Node) : Prop where
  kind : n₁.kind = n₂.kind
  label : n₁.flags.label = n₂.flags.label
  description : n₁.flags.description = n₂.flags.description
  unknown : n₁.flags.unknown = n₂.flags.unknown
  rules : n₁.rules = n₂.rules
  valids : n₁.valids = n₂.valids
  allow : n₁.allow = n₂.allow
  invalids : n₁.invalids = n₂.invalids
  keys : n₁.keys.map (List.map propertyWithoutPaths) = n₂.keys.map (List.map propertyWithoutPaths)
  items : n₁.items.map withoutPaths = n₂.items.map withoutPaths
  members : n₁.members.map withoutPaths = n₂.members.map withoutPaths
  guards : n₁.guards.map Guard.withoutPaths = n₂.guards.map Guard.withoutPaths
  name : n₁.name = n₂.name

theorem alike_of_shape {n₁ n₂ : Node} (h : n₁.shape = n₂.shape) : Alike n₁ n₂ := by
  simp only [shape, withoutPaths_eq, Node.mk.injEq, Flags.mk.injEq, true_and, and_true] at h
  obtain ⟨kind, ⟨label, description, unknown⟩, rules, valids, allow, invalids, keys, items, members,
    guards, name⟩ := h
  exact ⟨kind, label, description, unknown, rules, valids, allow, invalids, keys, items, members,
    guards, name⟩

/-- Two nodes that are equal without their paths have the same flags and the same shape. -/
theorem flags_of_withoutPaths {n₁ n₂ : Node} (h : n₁.withoutPaths = n₂.withoutPaths) :
    n₁.flags = n₂.flags ∧ Alike n₁ n₂ := by
  have hflags : n₁.flags = n₂.flags := by
    simpa only [withoutPaths_eq] using congrArg Node.flags h
  exact ⟨hflags, alike_of_shape (by rw [shape, shape, h, hflags])⟩

theorem isForbidden_of_withoutPaths {n₁ n₂ : Node} (h : n₁.withoutPaths = n₂.withoutPaths) :
    n₁.isForbidden = n₂.isForbidden := by
  obtain ⟨hflags, hn⟩ := flags_of_withoutPaths h
  rw [isForbidden, isForbidden, hn.kind, hflags]

/-! ## Merging without paths -/

theorem mergeKeys_withoutPaths (base branch : Option (Named Node)) :
    (mergeKeys base branch).map (List.map propertyWithoutPaths) =
      mergeKeys (base.map (List.map propertyWithoutPaths))
        (branch.map (List.map propertyWithoutPaths)) :=
  mergeKeys_mapKey withoutPaths base branch

/-- Merging and erasing paths can be done in either order. -/
theorem merge_withoutPaths {base branch m : Node} (h : base.merge branch = .ok m) :
    base.withoutPaths.merge branch.withoutPaths = .ok m.withoutPaths := by
  have hforbidden : branch.withoutPaths.isForbidden = branch.isForbidden := by
    simp only [withoutPaths_eq, isForbidden]
  -- Which way a merge goes is decided by kinds, flags and whether there are conditionals.
  unfold merge
  rcases merge_ok h with ⟨hf, rfl⟩ | ⟨hf, hguards, kind, hkind, rfl⟩
  · rw [hforbidden, hf]
    simp [withoutPaths_eq, bareForbidden, presence]
  · rw [hforbidden, hf]
    simp [withoutPaths_eq, hguards, hkind, mergeKeys_withoutPaths]

/-- A merge that fails does so for the same reason without paths. -/
theorem merge_error_withoutPaths {base branch : Node} {e : CompileError}
    (h : base.merge branch = .error e) :
    ∃ path, base.withoutPaths.merge branch.withoutPaths = .error ⟨e.cause, path⟩ := by
  have hforbidden : branch.withoutPaths.isForbidden = branch.isForbidden := by
    simp only [withoutPaths_eq, isForbidden]
  have hkinds : mergeKind? base.withoutPaths.kind branch.withoutPaths.kind =
      mergeKind? base.kind branch.kind := by
    simp only [withoutPaths_eq]
  unfold merge at h ⊢
  rw [hforbidden, hkinds]
  split at h
  · cases h
  · rename_i hf
    rw [if_neg hf]
    split at h
    · rename_i guard rest hguards
      cases h
      simp only [withoutPaths_eq, hguards, List.map_cons]
      exact ⟨_, rfl⟩
    · rename_i hguards hkind
      cases h
      simp only [withoutPaths_eq, hguards, hkind, List.map_nil]
      exact ⟨_, rfl⟩
    · cases h

/-- Merging nodes that are equal without their paths gives such nodes again, or fails alike. -/
theorem merge_alike {base₁ base₂ branch₁ branch₂ : Node}
    (hbase : base₁.withoutPaths = base₂.withoutPaths)
    (hbranch : branch₁.withoutPaths = branch₂.withoutPaths) :
    (∃ m₁ m₂, base₁.merge branch₁ = .ok m₁ ∧ base₂.merge branch₂ = .ok m₂ ∧
        m₁.withoutPaths = m₂.withoutPaths) ∨
      ∃ e₁ e₂, base₁.merge branch₁ = .error e₁ ∧ base₂.merge branch₂ = .error e₂ ∧
        e₁.cause = e₂.cause := by
  cases h₁ : base₁.merge branch₁ with
  | ok m₁ =>
    have herased₁ := merge_withoutPaths h₁
    rw [hbase, hbranch] at herased₁
    cases h₂ : base₂.merge branch₂ with
    | ok m₂ =>
      rw [merge_withoutPaths h₂] at herased₁
      exact .inl ⟨m₁, m₂, rfl, rfl, (Except.ok.inj herased₁).symm⟩
    | error e₂ =>
      obtain ⟨path, herased₂⟩ := merge_error_withoutPaths h₂
      rw [herased₂] at herased₁
      cases herased₁
  | error e₁ =>
    obtain ⟨path₁, herased₁⟩ := merge_error_withoutPaths h₁
    rw [hbase, hbranch] at herased₁
    cases h₂ : base₂.merge branch₂ with
    | ok m₂ =>
      rw [merge_withoutPaths h₂] at herased₁
      cases herased₁
    | error e₂ =>
      obtain ⟨path₂, herased₂⟩ := merge_error_withoutPaths h₂
      rw [herased₂] at herased₁
      exact .inr ⟨e₁, e₂, rfl, rfl, by injection herased₁ with h; injection h with h; exact h.symm⟩

end Node

namespace Writing

theorem guardBase_withoutPaths (n : Node) :
    guardBase n.withoutPaths = (guardBase n).map Node.withoutPaths := by
  simp only [guardBase, Node.withoutPaths_eq, List.isEmpty_map]
  split <;> simp [Node.withoutPaths_eq]

end Writing

end Schemata
