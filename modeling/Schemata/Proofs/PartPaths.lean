import Schemata.Proofs.Reading
/-!
Where the parts of a node stand.

Reading gives every node the path of the description it is read from, so the path of a part is the path
of the node with a few steps behind it. Those of a branch tell which node it is a branch of
(`Path.IsBranchOf.unique`): a branch stands under `then` or `otherwise`, behind the place of a
conditional or of a case of a switch. No other part stands there (`Node.Placed`).
-/

namespace Schemata

namespace Path

theorem eq_of_step {p q : Path} {step step' : Step}
    (h : ({ p with steps := p.steps ++ [step] } : Path) = { q with steps := q.steps ++ [step'] }) :
    p = q ∧ step = step' := by
  obtain ⟨hbase, hsteps⟩ := Path.mk.inj h
  obtain ⟨hfront, hlast⟩ := List.append_inj' hsteps rfl
  refine ⟨?_, List.singleton_inj.1 hlast⟩
  cases p
  cases q
  simp_all

theorem key_inj {p q : Path} {name name' : String} :
    p.key name = q.key name' ↔ p = q ∧ name = name' := by
  constructor
  · intro h
    obtain ⟨hpath, hstep⟩ := eq_of_step h
    exact ⟨hpath, Step.key.inj hstep⟩
  · rintro ⟨rfl, rfl⟩
    rfl

theorem index_inj {p q : Path} {i j : Nat} : p.index i = q.index j ↔ p = q ∧ i = j := by
  constructor
  · intro h
    obtain ⟨hpath, hstep⟩ := eq_of_step h
    exact ⟨hpath, Int.ofNat.inj (Step.index.inj hstep)⟩
  · rintro ⟨rfl, rfl⟩
    rfl

theorem key_ne_index (p q : Path) (name : String) (i : Nat) : p.key name ≠ q.index i := by
  intro h
  cases (eq_of_step h).2

/-- The place of a case: that of its conditional, or one in the switch of the conditional. -/
def IsCaseOf (case guard : Path) : Prop := case = guard ∨ ∃ i : Nat, case = (guard.key "switch").index i

/-- The place of a branch of the node at another place. The conditionals of a node stand in two
lists. -/
def IsBranchOf (path node : Path) : Prop :=
  ∃ list ∈ ["matches", "whens"], ∃ (i : Nat) (case : Path), case.IsCaseOf ((node.key list).index i) ∧
    (path = case.key "then" ∨ path = case.key "otherwise")

/-- Whether the last steps of a path are those to a branch. -/
def EndsInBranch (path : Path) : Prop :=
  ∃ (list : Path) (i : Nat), path = (list.index i).key "then" ∨ path = (list.index i).key "otherwise"

theorem IsBranchOf.endsInBranch {path node : Path} (h : path.IsBranchOf node) : path.EndsInBranch := by
  obtain ⟨list, -, i, case, hcase, hpath⟩ := h
  rcases hcase with rfl | ⟨j, rfl⟩
  · exact ⟨_, _, hpath⟩
  · exact ⟨_, _, hpath⟩

/-- A branch belongs to one node: what stands before it is a list of conditionals or a switch, and the
two have different names. -/
theorem IsBranchOf.unique {path node node' : Path} (h : path.IsBranchOf node)
    (h' : path.IsBranchOf node') : node = node' := by
  obtain ⟨list, hlist, i, case, hcase, hpath⟩ := h
  obtain ⟨list', hlist', i', case', hcase', hpath'⟩ := h'
  have hswitch : ∀ word ∈ ["matches", "whens"], word ≠ "switch" := by decide
  obtain rfl : case = case' := by
    rcases hpath with rfl | rfl <;> rcases hpath' with heq | heq <;> exact (key_inj.1 heq).1
  rcases hcase with rfl | ⟨j, rfl⟩ <;> rcases hcase' with heq | ⟨j', heq⟩
  · exact (key_inj.1 (index_inj.1 heq).1).1
  · exact absurd (key_inj.1 (index_inj.1 heq).1).2 (hswitch list hlist)
  · exact absurd (key_inj.1 (index_inj.1 heq).1).2.symm (hswitch list' hlist')
  · exact (key_inj.1 (index_inj.1 (key_inj.1 (index_inj.1 heq).1).1).1).1

theorem not_endsInBranch_index (p : Path) (i : Nat) : ¬ (p.index i).EndsInBranch := by
  rintro ⟨list, j, h | h⟩
  · exact key_ne_index _ _ _ _ h.symm
  · exact key_ne_index _ _ _ _ h.symm

theorem not_endsInBranch_key {p : Path} {name : String} (h : name ≠ "then" ∧ name ≠ "otherwise") :
    ¬ (p.key name).EndsInBranch := by
  rintro ⟨list, j, heq | heq⟩
  · exact h.1 (key_inj.1 heq).2
  · exact h.2 (key_inj.1 heq).2

theorem not_endsInBranch_key_key (p : Path) (name name' : String) :
    ¬ ((p.key name).key name').EndsInBranch := by
  rintro ⟨list, j, heq | heq⟩
  · exact key_ne_index _ _ _ _ (key_inj.1 heq).1
  · exact key_ne_index _ _ _ _ (key_inj.1 heq).1

end Path

/-! ## Readers that keep to their path -/

/-- A reader that gives nodes at the path it is given. -/
def ChildReader.KeepsPath (child : ChildReader) : Prop :=
  ∀ raw path m, child raw path = .ok m → m.path = path

theorem Node.read_keepsPath (limit : Int) (levels : Nat) :
    ChildReader.KeepsPath (Node.read limit levels) := by
  intro raw path m h
  cases levels with
  | zero => cases h
  | succ levels =>
    obtain ⟨entries, -, hm⟩ := readLevel_ok h
    exact hm.path

theorem readEach_mem {α : Type} {read : Value → Path → Checked α} {items : List Value} {path : Path}
    {as : List α} (h : readEach read items path = .ok as) :
    ∀ a ∈ as, ∃ item i, read item (path.index i) = .ok a := by
  intro a ha
  obtain ⟨⟨item, i⟩, -, hread⟩ := Outcome.mapM_ok_mem h a ha
  exact ⟨item, i, hread⟩

/-- Where the parts of a conditional at a given place stand. -/
structure Guard.Placed (path : Path) (g : Guard Node) : Prop where
  conditions : ∀ m ∈ g.conditions, ¬ m.path.EndsInBranch
  branches : ∀ m ∈ g.branches, ∃ case : Path, case.IsCaseOf path ∧
    (m.path = case.key "then" ∨ m.path = case.key "otherwise")

/-- Where the parts of a node stand. -/
structure Node.Placed (n : Node) : Prop where
  content : ∀ m ∈ n.content, ¬ m.path.EndsInBranch
  conditions : ∀ m ∈ n.conditions, ¬ m.path.EndsInBranch
  branches : ∀ m ∈ n.branches, m.path.IsBranchOf n.path

section Readers
variable {child : ChildReader} (hchild : child.KeepsPath)
include hchild

theorem readBranch_path {raw : Value} {path : Path} {branch : Option Node}
    (h : Case.readBranch child raw path = .ok branch) : ∀ m, branch = some m → m.path = path := by
  unfold Case.readBranch at h
  split at h
  · cases h
    simp
  · obtain ⟨node, hnode, h⟩ := Outcome.bind_ok.1 h
    cases h
    rintro m ⟨⟩
    exact hchild _ _ _ hnode

theorem readCondition_path {raw : Option Value} {path : Path} {m : Node}
    (h : Case.readCondition child raw path = .ok m) : m.path = path := by
  unfold Case.readCondition at h
  split at h
  · cases h
    rfl
  · split at h
    · exact hchild _ _ _ h
    · split at h
      · obtain ⟨_, -, h⟩ := Outcome.bind_ok.1 h
        cases h
        rfl
      · obtain ⟨_, -, h⟩ := Outcome.bind_ok.1 h
        cases h
        rfl

omit hchild in
theorem readTestKey_name {raw : Entries} {path : Path} {r : Bool × String}
    (h : Case.readTestKey raw path = .ok r) : r.2 ≠ "then" ∧ r.2 ≠ "otherwise" := by
  unfold Case.readTestKey at h
  split at h <;> cases h <;> decide

theorem readCase_placed {raw : Entries} {path : Path} {c : Case Node}
    (h : Case.read child raw path = .ok c) :
    ¬ c.condition.path.EndsInBranch ∧ ∀ m, c.branch = some m → m.path = path.key "then" := by
  obtain ⟨⟨negated, key⟩, hkey, h⟩ := Outcome.bind_ok.1 h
  obtain ⟨condition, hcondition, h⟩ := Outcome.bind_ok.1 h
  obtain ⟨branch, hbranch, h⟩ := Outcome.bind_ok.1 h
  cases h
  refine ⟨?_, readBranch_path hchild hbranch⟩
  rw [readCondition_path hchild hcondition]
  exact Path.not_endsInBranch_key (readTestKey_name hkey)

theorem readSwitchCase_placed {raw : Value} {path : Path} {r : Case Node × Option Node}
    (h : Guard.readSwitchCase child raw path = .ok r) :
    ¬ r.1.condition.path.EndsInBranch ∧ (∀ m, r.1.branch = some m → m.path = path.key "then") ∧
      ∀ m, r.2 = some m → m.path = path.key "otherwise" := by
  obtain ⟨entries, -, h⟩ := Outcome.bind_ok.1 h
  obtain ⟨case, hcase, h⟩ := Outcome.bind_ok.1 h
  obtain ⟨otherwise, hotherwise, h⟩ := Outcome.bind_ok.1 h
  cases h
  obtain ⟨hcondition, hbranch⟩ := readCase_placed hchild hcase
  exact ⟨hcondition, hbranch, readBranch_path hchild hotherwise⟩

theorem readCases_placed {raw : Entries} {path : Path} {r : List (Case Node) × Option Node}
    (h : Guard.readCases child raw path = .ok r) :
    (∀ c ∈ r.1, ¬ c.condition.path.EndsInBranch ∧ ∀ m, c.branch = some m →
      ∃ case : Path, case.IsCaseOf path ∧ m.path = case.key "then") ∧
      ∀ m, r.2 = some m → ∃ case : Path, case.IsCaseOf path ∧ m.path = case.key "otherwise" := by
  unfold Guard.readCases at h
  split at h
  · obtain ⟨items, -, h⟩ := Outcome.bind_ok.1 h
    obtain ⟨cases, hcases, h⟩ := Outcome.bind_ok.1 h
    split at h
    · cases h
    · cases h
      have hplaced : ∀ r ∈ cases, ∃ i, ¬ r.1.condition.path.EndsInBranch ∧
          (∀ m, r.1.branch = some m → m.path = ((path.key "switch").index i).key "then") ∧
          ∀ m, r.2 = some m → m.path = ((path.key "switch").index i).key "otherwise" := by
        intro r hr
        obtain ⟨item, i, hread⟩ := readEach_mem hcases r hr
        exact ⟨i, readSwitchCase_placed hchild hread⟩
      constructor
      · intro c hc
        obtain ⟨r, hr, rfl⟩ := List.mem_map.1 hc
        obtain ⟨i, hcondition, hbranch, -⟩ := hplaced r hr
        exact ⟨hcondition, fun m hm => ⟨_, .inr ⟨i, rfl⟩, hbranch m hm⟩⟩
      · intro m hm
        obtain ⟨r, hr, hotherwise⟩ := List.mem_map.1 (mem_of_lastBranch hm)
        obtain ⟨i, -, -, hpath⟩ := hplaced r hr
        exact ⟨_, .inr ⟨i, rfl⟩, hpath m hotherwise⟩
  · obtain ⟨case, hcase, h⟩ := Outcome.bind_ok.1 h
    cases h
    obtain ⟨hcondition, hbranch⟩ := readCase_placed hchild hcase
    refine ⟨List.forall_mem_singleton.2 ⟨hcondition, fun m hm => ?_⟩, fun m hm => by cases hm⟩
    exact ⟨path, .inl rfl, hbranch m hm⟩

theorem readGuard_placed {raw : Value} {path : Path} {g : Guard Node}
    (h : Guard.read child raw path = .ok g) : g.Placed path := by
  obtain ⟨entries, -, h⟩ := Outcome.bind_ok.1 h
  obtain ⟨reference, -, h⟩ := Outcome.bind_ok.1 h
  obtain ⟨⟨cases, fallback⟩, hcases, h⟩ := Outcome.bind_ok.1 h
  obtain ⟨own, hown, h⟩ := Outcome.bind_ok.1 h
  obtain ⟨hcases, hfallback⟩ := readCases_placed hchild hcases
  dsimp only at h
  split at h
  · cases h
  · cases h
    constructor
    · intro m hm
      obtain ⟨c, hc, rfl⟩ := List.mem_map.1 hm
      exact (hcases c hc).1
    · intro m hm
      rcases List.mem_append.1 hm with hm | hm
      · obtain ⟨c, hc, hbranch⟩ := List.mem_filterMap.1 hm
        obtain ⟨case, hcase, hpath⟩ := (hcases c hc).2 m hbranch
        exact ⟨case, hcase, .inl hpath⟩
      · cases own with
        | some m' =>
          obtain rfl : m = m' := by simpa using hm
          exact ⟨path, .inl rfl, .inr (readBranch_path hchild hown m rfl)⟩
        | none =>
          obtain ⟨case, hcase, hpath⟩ := hfallback m (by simpa using hm)
          exact ⟨case, hcase, .inr hpath⟩

namespace Node

theorem readKeys_path {raw : Value} {path : Path} {keys : Option (List (String × Node))}
    (h : readKeys child raw path = .ok keys) :
    ∀ key ∈ keys.getD [], key.2.path = path.key key.1 := by
  unfold readKeys at h
  split at h
  · cases h
    simp
  · obtain ⟨entries, -, h⟩ := Outcome.bind_ok.1 h
    obtain ⟨read, hread, h⟩ := Outcome.bind_ok.1 h
    cases h
    intro key hkey
    obtain ⟨⟨name, value⟩, -, hentry⟩ := Outcome.mapM_ok_mem hread key hkey
    dsimp only at hentry
    split at hentry
    · obtain ⟨node, hnode, hentry⟩ := Outcome.bind_ok.1 hentry
      cases hentry
      exact hchild _ _ _ hnode
    · cases hentry

theorem readMatch_placed {raw : Value} {path : Path} {r : Node ⊕ Guard Node}
    (h : readMatch child raw path = .ok r) :
    (∀ m, r = .inl m → m.path = path ∨ m.path = path.key "schema") ∧
      ∀ g, r = .inr g → g.Placed path := by
  unfold readMatch at h
  split at h
  · split at h
    · obtain ⟨node, hnode, h⟩ := Outcome.bind_ok.1 h
      cases h
      refine ⟨fun m hm => ?_, fun g hg => by cases hg⟩
      cases hm
      exact .inr (hchild _ _ _ hnode)
    · split at h
      · obtain ⟨node, hnode, h⟩ := Outcome.bind_ok.1 h
        cases h
        refine ⟨fun m hm => ?_, fun g hg => by cases hg⟩
        cases hm
        exact .inl (hchild _ _ _ hnode)
      · obtain ⟨guard, hguard, h⟩ := Outcome.bind_ok.1 h
        cases h
        refine ⟨fun m hm => (by cases hm), fun g hg => ?_⟩
        cases hg
        exact readGuard_placed hchild hguard
  · cases h

theorem readMembers_placed {entries : Entries} {kind : Kind} {path : Path}
    {r : List Node × List (Guard Node)} (h : readMembers child entries kind path = .ok r) :
    (∀ m ∈ r.1, ¬ m.path.EndsInBranch) ∧
      ∀ g ∈ r.2, ∃ i : Nat, g.Placed ((path.key "matches").index i) := by
  unfold readMembers at h
  split at h
  · simp only [readMatches, Outcome.bind_ok] at h
    obtain ⟨items, -, members, hmembers, h⟩ := h
    have hplaced : ∀ r ∈ members, ∃ i : Nat,
        (∀ m, r = .inl m → m.path = (path.key "matches").index i ∨
          m.path = ((path.key "matches").index i).key "schema") ∧
        ∀ g, r = .inr g → g.Placed ((path.key "matches").index i) := by
      intro r hr
      obtain ⟨item, i, hread⟩ := readEach_mem hmembers r hr
      exact ⟨i, readMatch_placed hchild hread⟩
    split at h
    · cases h
    · split at h <;> cases h
      constructor
      · intro m hm
        obtain ⟨r, hr, hleft⟩ := List.mem_filterMap.1 hm
        obtain ⟨i, hplain, -⟩ := hplaced r hr
        rcases hplain m (Sum.getLeft?_eq_some_iff.1 hleft) with hpath | hpath <;> rw [hpath]
        · exact Path.not_endsInBranch_index _ _
        · exact Path.not_endsInBranch_key (by decide)
      · intro g hg
        obtain ⟨r, hr, hright⟩ := List.mem_filterMap.1 hg
        obtain ⟨i, -, hguard⟩ := hplaced r hr
        exact ⟨i, hguard g (Sum.getRight?_eq_some_iff.1 hright)⟩
  · split at h <;> cases h
    simp

theorem readWhens_placed {entries : Entries} {path : Path} {whens : List (Guard Node)}
    (h : readPart (readWhens child) [] entries "whens" path = .ok whens) :
    ∀ g ∈ whens, ∃ i : Nat, g.Placed ((path.key "whens").index i) := by
  intro g hg
  rcases readPart_ok h with ⟨raw, -, h⟩ | ⟨-, rfl⟩
  · obtain ⟨items, -, h⟩ := Outcome.bind_ok.1 h
    obtain ⟨item, i, hread⟩ := readEach_mem h g hg
    exact ⟨i, readGuard_placed hchild hread⟩
  · cases hg

theorem Reads.guards_placed {entries : Entries} {path : Path} {n : Node}
    (h : n.Reads child entries path) : ∀ g ∈ n.guards, ∃ list ∈ ["matches", "whens"], ∃ i : Nat,
      g.Placed ((n.path.key list).index i) := by
  obtain ⟨members, whens, hmembers, hwhens, hguards⟩ := h.guards
  obtain rfl := h.path
  intro g hg
  rw [hguards] at hg
  rcases List.mem_append.1 hg with hg | hg
  · exact ⟨"matches", by simp, (readMembers_placed hchild hmembers).2 g hg⟩
  · exact ⟨"whens", by simp, readWhens_placed hchild hwhens g hg⟩

theorem Reads.content_placed {entries : Entries} {path : Path} {n : Node}
    (h : n.Reads child entries path) : ∀ m ∈ n.content, ¬ m.path.EndsInBranch := by
  obtain ⟨members, -, hmembers, -, -⟩ := h.guards
  intro m hm
  rcases List.mem_append.1 hm with hm | hm
  · rcases List.mem_append.1 hm with hm | hm
    · obtain ⟨key, hkey, rfl⟩ := List.mem_map.1 hm
      rcases readPart_ok h.keys with ⟨raw, -, hkeys⟩ | ⟨-, hnone⟩
      · rw [readKeys_path hchild hkeys key hkey]
        exact Path.not_endsInBranch_key_key _ _ _
      · rw [hnone] at hkey
        cases hkey
    · rcases readPart_ok h.items with ⟨raw, -, hitems⟩ | ⟨-, hnone⟩
      · obtain ⟨items, -, hread⟩ := Outcome.bind_ok.1 hitems
        obtain ⟨item, i, hread⟩ := readEach_mem hread m hm
        rw [hchild _ _ _ hread]
        exact Path.not_endsInBranch_index _ _
      · rw [hnone] at hm
        cases hm
  · exact (readMembers_placed hchild hmembers).1 m hm

/-- Every part of a node that is read stands where parts of its sort stand. -/
theorem Reads.placed {entries : Entries} {path : Path} {n : Node} (h : n.Reads child entries path) :
    n.Placed where
  content := h.content_placed hchild
  conditions m hm := by
    obtain ⟨g, hg, hm⟩ := List.mem_flatMap.1 hm
    obtain ⟨list, -, i, hplaced⟩ := h.guards_placed hchild g hg
    exact hplaced.conditions m hm
  branches m hm := by
    obtain ⟨g, hg, hm⟩ := List.mem_flatMap.1 hm
    obtain ⟨list, hlist, i, hplaced⟩ := h.guards_placed hchild g hg
    obtain ⟨case, hcase, hpath⟩ := hplaced.branches m hm
    exact ⟨list, hlist, i, case, hcase, hpath⟩

end Node

end Readers

end Schemata
