import Schemata.Proofs.Pruning
import Schemata.Proofs.Reached
import Schemata.Proofs.WellFormed
/-!
Forbidden content is dead.

A spot says where a part stands in the node above it, and a list of spots leads from a node to any
node inside it. Replacing a forbidden node without conditionals by a bare one, wherever it stands,
does not change what pruning leaves, and pruning does not change what is compiled.

Component: the compilation of nodes, `Compiler.compileNode`. Main results:
- `prune_replaceAt` — a bare node in the place of a dead one leaves the same to prune;
- `compile_forbidden` — and is compiled alike.
-/

namespace Schemata

namespace Node

/-! ## Parts by their spots -/

/-- Where a part stands in the node above it. -/
inductive Spot where
  | key (i : Nat)
  | item (i : Nat)
  | member (i : Nat)
  | condition (guard case : Nat)
  | branch (guard case : Nat)
  | otherwise (guard : Nat)
deriving DecidableEq, Repr

def case? (n : Node) (guard case : Nat) : Option (Case Node) :=
  n.guards[guard]?.bind fun g => g.cases[case]?

def part? (n : Node) : Spot → Option Node
  | .key i => ((n.keys.getD [])[i]?).map Prod.snd
  | .item i => n.items[i]?
  | .member i => n.members[i]?
  | .condition guard case => (n.case? guard case).map Case.condition
  | .branch guard case => (n.case? guard case).bind Case.branch
  | .otherwise guard => n.guards[guard]?.bind Guard.otherwise

def modifyCase (f : Case Node → Case Node) (n : Node) (guard case : Nat) : Node :=
  { n with guards := n.guards.modify guard fun g => { g with cases := g.cases.modify case f } }

def modifyPart (f : Node → Node) (n : Node) : Spot → Node
  | .key i => { n with keys := n.keys.map fun keys => keys.modify i (mapKey f) }
  | .item i => { n with items := n.items.modify i f }
  | .member i => { n with members := n.members.modify i f }
  | .condition guard case => n.modifyCase (fun c => { c with condition := f c.condition }) guard case
  | .branch guard case => n.modifyCase (fun c => { c with branch := c.branch.map f }) guard case
  | .otherwise guard =>
    { n with guards := n.guards.modify guard fun g => { g with otherwise := g.otherwise.map f } }

/-- The node that a list of spots leads to. -/
def at? : Node → List Spot → Option Node
  | n, [] => some n
  | n, spot :: rest => (n.part? spot).bind fun m => m.at? rest

/-- A node with another one in the place that a list of spots leads to. -/
def replaceAt (n : Node) : List Spot → Node → Node
  | [], new => new
  | spot :: rest, new => n.modifyPart (fun m => m.replaceAt rest new) spot

/-! ## Changes that pruning does not see -/

theorem map_modify {α β : Type} {e : α → β} {f : α → α} {l : List α} {i : Nat}
    (h : ∀ a, l[i]? = some a → e (f a) = e a) : (l.modify i f).map e = l.map e := by
  apply List.ext_getElem?
  intro j
  rw [List.getElem?_map, List.getElem?_map, List.getElem?_modify]
  by_cases hij : i = j
  · subst hij
    cases ha : l[i]? with
    | none => rfl
    | some a => simp [h a ha]
  · simp [hij]

theorem mapParts_modifyCase {e : Node → Node} {f : Case Node → Case Node} {n : Node}
    {guard case : Nat}
    (h : ∀ c, n.case? guard case = some c → (f c).mapParts e = c.mapParts e) :
    (n.modifyCase f guard case).mapParts e = n.mapParts e := by
  have hguards : (n.guards.modify guard fun g => { g with cases := g.cases.modify case f }).map
      (Guard.mapParts e) = n.guards.map (Guard.mapParts e) := by
    refine map_modify fun g hg => ?_
    have hcases : (g.cases.modify case f).map (Case.mapParts e) = g.cases.map (Case.mapParts e) :=
      map_modify fun c hc => h c (by rw [case?, hg, Option.bind_some, hc])
    simp only [Guard.mapParts, hcases]
  simp only [modifyCase, mapParts, hguards]

/-- Changing one part is not seen by a change of all parts that does not tell the part before from the
part after. -/
theorem mapParts_modifyPart {e f : Node → Node} {n k : Node} {spot : Spot}
    (hk : n.part? spot = some k) (h : e (f k) = e k) : (n.modifyPart f spot).mapParts e = n.mapParts e := by
  cases spot with
  | key i =>
    cases hkeys : n.keys with
    | none => simp [part?, hkeys] at hk
    | some keys =>
      have hmap : (keys.modify i (mapKey f)).map (mapKey e) = keys.map (mapKey e) := by
        refine map_modify fun key hkey => ?_
        simp only [part?, hkeys, Option.getD_some, hkey, Option.map_some, Option.some.injEq] at hk
        simp only [mapKey, hk, h]
      simp only [modifyPart, mapParts, hkeys, Option.map_some, hmap]
  | item i =>
    have hmap : (n.items.modify i f).map e = n.items.map e :=
      map_modify fun m hm => by rw [Option.some.inj (hm.symm.trans hk), h]
    simp only [modifyPart, mapParts, hmap]
  | member i =>
    have hmap : (n.members.modify i f).map e = n.members.map e :=
      map_modify fun m hm => by rw [Option.some.inj (hm.symm.trans hk), h]
    simp only [modifyPart, mapParts, hmap]
  | condition guard case =>
    refine mapParts_modifyCase fun c hc => ?_
    simp only [part?, hc, Option.map_some, Option.some.injEq] at hk
    simp only [Case.mapParts, hk, h]
  | branch guard case =>
    refine mapParts_modifyCase fun c hc => ?_
    simp only [part?, hc, Option.bind_some] at hk
    simp only [Case.mapParts, hk, Option.map_some, h]
  | otherwise guard =>
    have hmap : (n.guards.modify guard fun g => { g with otherwise := g.otherwise.map f }).map
        (Guard.mapParts e) = n.guards.map (Guard.mapParts e) := by
      refine map_modify fun g hg => ?_
      simp only [part?, hg, Option.bind_some] at hk
      simp only [Guard.mapParts, hk, Option.map_some, h]
    simp only [modifyPart, mapParts, hmap]

theorem isDead_modifyPart (f : Node → Node) (n : Node) (spot : Spot) :
    (n.modifyPart f spot).isDead = n.isDead := by
  have hempty : ∀ i (g : Guard Node → Guard Node), (n.guards.modify i g).isEmpty = n.guards.isEmpty := by
    intro i g
    cases n.guards <;> cases i <;> rfl
  cases spot <;> simp only [modifyPart, modifyCase, isDead, isForbidden, hempty]

theorem bare_modifyPart (f : Node → Node) (n : Node) (spot : Spot) :
    (n.modifyPart f spot).bare = n.bare := by
  cases spot <;> rfl

/-- Putting the bare form in the place of a dead node leaves nothing to prune there, and changes nothing
else. -/
theorem prune_replaceAt {n m : Node} {spots : List Spot} (hm : n.at? spots = some m)
    (hdead : m.isDead = true) : (n.replaceAt spots m.bare).prune = n.prune := by
  induction spots generalizing n with
  | nil =>
    obtain rfl := Option.some.inj hm
    rw [replaceAt, prune_of_dead hdead, prune_of_dead n.isDead_bare, bare_bare]
  | cons spot rest ih =>
    obtain ⟨k, hk, hm⟩ := Option.bind_eq_some_iff.1 hm
    rw [replaceAt, prune_eq, prune_eq n, isDead_modifyPart, bare_modifyPart,
      mapParts_modifyPart hk (ih hm)]

/-- A part at a spot is one of the parts of the node. -/
theorem mem_of_part? {n k : Node} {spot : Spot} (hk : n.part? spot = some k) :
    k ∈ n.content ∨ k ∈ n.branches ∨ k ∈ n.conditions := by
  have hcase : ∀ {guard case c}, n.case? guard case = some c → ∃ g ∈ n.guards, c ∈ g.cases := by
    intro guard case c hc
    obtain ⟨g, hg, hc⟩ := Option.bind_eq_some_iff.1 hc
    exact ⟨g, List.mem_of_getElem? hg, List.mem_of_getElem? hc⟩
  cases spot with
  | key i =>
    obtain ⟨key, hkey, rfl⟩ := Option.map_eq_some_iff.1 hk
    have hmem := List.mem_map_of_mem (f := Prod.snd) (List.mem_of_getElem? hkey)
    exact .inl (List.mem_append_left _ (List.mem_append_left _ hmem))
  | item i =>
    exact .inl (List.mem_append_left _ (List.mem_append_right _ (List.mem_of_getElem? hk)))
  | member i => exact .inl (List.mem_append_right _ (List.mem_of_getElem? hk))
  | condition guard case =>
    obtain ⟨c, hc, rfl⟩ := Option.map_eq_some_iff.1 hk
    obtain ⟨g, hg, hc⟩ := hcase hc
    exact .inr (.inr (List.mem_flatMap.2 ⟨g, hg, List.mem_map_of_mem hc⟩))
  | branch guard case =>
    obtain ⟨c, hc, hk⟩ := Option.bind_eq_some_iff.1 hk
    obtain ⟨g, hg, hc⟩ := hcase hc
    have hmem := List.mem_filterMap.2 ⟨c, hc, hk⟩
    exact .inr (.inl (List.mem_flatMap.2 ⟨g, hg, List.mem_append_left _ hmem⟩))
  | otherwise guard =>
    obtain ⟨g, hg, hk⟩ := Option.bind_eq_some_iff.1 hk
    have hmem := List.mem_append_right (g.cases.filterMap Case.branch) (Option.mem_toList.2 hk)
    exact .inr (.inl (List.mem_flatMap.2 ⟨g, List.mem_of_getElem? hg, hmem⟩))

theorem All.at? {P : Node → Prop} {n m : Node} {spots : List Spot} (h : n.All P)
    (hm : n.at? spots = some m) : m.All P := by
  induction spots generalizing n with
  | nil => exact Option.some.inj hm ▸ h
  | cons spot rest ih =>
    obtain ⟨k, hk, hm⟩ := Option.bind_eq_some_iff.1 hm
    rcases mem_of_part? hk with hk | hk | hk
    · exact ih (h.content k hk) hm
    · exact ih (h.branches k hk) hm
    · exact ih (h.conditions k hk) hm

/-- Every node of a description that is forbidden says so outright. -/
theorem read_forbidden {limit : Int} {levels : Nat} {raw : Value} {path : Path} {n : Node}
    (h : read limit levels raw path = .ok n) :
    n.All fun m => m.isForbidden = true → m.presence = some .forbidden := by
  refine read_all (V := fun _ => True) (fun _ _ _ _ => trivial) ?_ ?_ trivial h
  · intro child entries path m _ hm hforbidden
    obtain ⟨raw, -, hflags⟩ := hm.flags
    simp only [isForbidden, Bool.or_eq_true, beq_iff_eq] at hforbidden
    rcases hforbidden with hkind | hpresence
    · rw [hkind] at hflags
      rw [presence, readFlags_forbidden hflags]
    · exact hpresence
  · intro m hm hforbidden
    cases hm <;> cases hforbidden

end Node

/-- Forbidden content is dead. In a description that was read, with any limit, any forbidden node
without conditionals may be replaced by a node that says nothing but that it is forbidden: every
compiler gives the same result, or fails in the same way. -/
theorem Compiler.compile_forbidden (c : Compiler) {limit : Int} {raw : Value} {root m : Node}
    {spots : List Node.Spot} (hread : Node.ofValue limit raw = .ok root)
    (hm : root.at? spots = some m) (hguards : m.guards = []) (hforbidden : m.isForbidden = true) :
    let bare : Node :=
      { kind := .forbidden, flags := { presence := some .forbidden }, path := m.path }
    c.compile (.node (root.replaceAt spots bare)) = c.compile (.node root) ∧
      (c.options.maxDepth = limit →
        c.compile (.node (root.replaceAt spots bare)) = c.compile (.tree raw)) := by
  have hdead : m.isDead = true := by simp [Node.isDead, hforbidden, hguards]
  have hpresence : m.presence = some .forbidden :=
    ((Node.read_forbidden hread).at? hm).self hforbidden
  have hprune := Node.prune_replaceAt hm hdead
  simp only [Node.bare, hpresence] at hprune
  have hnode : c.compileNode (root.replaceAt spots (Node.bareForbidden (some .forbidden) m.path)) =
      c.compileNode root := by
    rw [← compileNode_prune, hprune, compileNode_prune]
  refine ⟨hnode, fun hlimit => ?_⟩
  rw [compile_of_read (hlimit ▸ hread)]
  exact hnode

/-- A branch that forbids a property, and says much that is never looked at: a rule that no table has, a
name, a default and properties of its own. -/
theorem Compiler.compile_forbidden_branch :
    let description : Value := .map [(.str "type", .str "object"), (.str "keys", .map
      [(.str "a", .map [(.str "type", .str "object"), (.str "whens", .list [.map
        [(.str "ref", .str "b"), (.str "is", .int 1), (.str "then", .map
          [(.str "type", .str "object"), (.str "rules", .list [.map [(.str "name", .str "none")]]),
            (.str "flags", .map
              [(.str "presence", .str "forbidden"), (.str "default", .map [(.str "x", .int 1)])]),
            (.str "keys", .map [(.str "x", .map [(.str "type", .str "number")])]),
            (.str "metadata", .map [(.str "className", .str "Dead")])])]])])])]
    let c : Compiler := {}
    ∃ root m, Node.ofValue 64 description = .ok root ∧ root.at? [.key 0, .branch 0 0] = some m ∧
      m.guards = [] ∧ m.isForbidden = true ∧ m.name = some "Dead" ∧
      c.compile (.node (root.replaceAt [.key 0, .branch 0 0]
        { kind := .forbidden, flags := { presence := some .forbidden }, path := m.path })) =
          c.compile (.tree description) := by
  refine ⟨?root, ?m, ?hread, ?hm, ?hguards, ?hforbidden, ?hname,
    (compile_forbidden {} ?hread ?hm ?hguards ?hforbidden).2 rfl⟩
  case hread => rfl
  case hm => rfl
  all_goals rfl

end Schemata
